import PluginRegistry.CommandLine.Reach
import PluginRegistry.Proofs.CommandOperations
import PluginRegistry.Proofs.ForeignTables
import PluginRegistry.Proofs.WorkplaceFiles

/-!
# What a run leaves

A run that ends well has performed one operation, and the files keep the state after it. A run that
ends badly leaves the records and all other files as they were, as long as the operation failed. But
the answer is printed once the operation is done. If it cannot be written then, the run ends badly
although the change was made, and this is possible for a record with an undeclared entry under the
name of a time: such an entry is not kept, and only what is kept is checked before. The other way to
leave something changed is to remove a record whose row has that of another plugin.
-/

namespace PluginRegistry.CommandLine

open PluginRegistry.Action

variable {environment : List (String × String)} {words : List String} {w : Workplace}

/-! ## What is performed -/

/-- What a run is asked and its settings, if it gets that far. -/
def Workplace.configured? (w : Workplace) (environment : List (String × String))
    (words : List String) : Option (Request × Settings) := do
  let request ← (Request.read words).toOption
  let dotenv ← w.dotenv.toOption
  let settings ← (request.settings environment dotenv).1.toOption
  return (request, settings)

/-- The file of the database that a run works on, unless that is in memory. -/
def Workplace.databaseFile? (w : Workplace) (environment : List (String × String))
    (words : List String) : Option Path := do
  let (_, settings) ← w.configured? environment words
  let place ← (DatabasePlace.ofAddress settings.databaseUrl).toOption
  w.fileOf? place

/-- The registry that a run works with, in which the user of the command line is bound. -/
def Workplace.registry (w : Workplace) (settings : Settings) (user : Option String) :
    Registry FileTree where
  store := (w.artifacts? settings).map Artifacts.inDirectory
  validators := settings.validators
  resolver := some (Identity.bound user)
  anonymousUser := settings.anonymousUser
  timing := timing

/-- The operation that a run comes to. -/
structure Undertaking (environment : List (String × String)) (words : List String)
    (w : Workplace) where
  /-- What the command line asks for. -/
  request : Request
  /-- The settings of the run. -/
  settings : Settings
  /-- The state that the operation starts from. -/
  before : World FileTree
  /-- What is performed. -/
  operation : PluginRegistry.Operation
  /-- The request and the settings are those of the run. -/
  configured : w.configured? environment words = some (request, settings)
  /-- The state is the one that the files keep. -/
  kept : w.Keeps (w.databaseFile? environment words) before
  /-- The file of the database stands by then. -/
  stands : ∀ path ∈ w.databaseFile? environment words, before.artifacts.files path ≠ none
  /-- A database in memory is empty. -/
  fresh : w.databaseFile? environment words = none → before.table = some .empty
  /-- The operation is that of the command, with the record in the file. -/
  meant : request.command.asked { w with tree := before.artifacts } = .ok operation

/-- The result of the operation, and the state after it. -/
def Undertaking.performed (u : Undertaking environment words w) (now : CivilTime) :
    Except Failure Answer × World FileTree :=
  ((w.registry u.settings u.request.user).perform now u.operation).start u.before

/-! ## Operations whose answer is not printed -/

/-- **An operation whose answer is not printed has changed nothing**, but in two cases: the answer
is a record with an entry under the name of a time that cannot be written, or a record was to be
removed whose row has that of another plugin. -/
theorem kept_of_not_printed {r : Registry FileTree} {now : CivilTime} {command : Command}
    {op : PluginRegistry.Operation} (hactor : r.SettlesActor op) {before after : World FileTree}
    (htable : before.table ≠ none) {result : Except Failure Answer}
    (h : (r.perform now op).start before = (result, after))
    (hprinted : ∀ answer text, result = .ok answer → command.printed answer ≠ .ok text) :
    before.Kept after ∨ (∃ p, result = .ok (.plugin p) ∧ p.HasStray) ∨
      ∃ id user row, op = .delete id user ∧ before.row? id = some row ∧ ¬row.Names id := by
  obtain ⟨t, ht⟩ := Option.ne_none_iff_exists'.mp htable
  cases result with
  | error failure =>
      rcases Registry.kept_of_failure hactor ht h with hk | ⟨id, user, row, hop, hrow, hnames⟩
      · exact .inl hk
      · exact .inr (.inr ⟨id, user, row, hop, (World.row?_of_table ht id).trans hrow, hnames⟩)
  | ok answer =>
      by_cases htarget : op.target? = none
      · exact .inl ((r.keeps_perform now htarget).of_start h)
      · rcases Registry.written_of_perform ht htarget h with hwritten | ⟨p, rfl, hstray⟩
        · obtain ⟨text, htext⟩ := command.printed_of_written hwritten
          exact absurd htext (hprinted answer text rfl)
        · exact .inr (.inl ⟨p, rfl, hstray⟩)

/-! ## The parts of a run -/

theorem Workplace.keep_tree (path : Option Path) (table : Table) (tree : FileTree) :
    ({ w.keep path table with tree } : Workplace) = { w with tree } := by
  cases path with
  | none => rfl
  | some path => rfl

theorem Workplace.registry_keep (path : Option Path) (table : Table) (settings : Settings)
    (user : Option String) :
    (w.keep path table).registry settings user = w.registry settings user := by
  cases path with
  | none => rfl
  | some path => rfl

/-- To make the directory of the artifacts changes no file and no record. -/
theorem makeArtifacts_spec (w : Workplace) (settings : Settings) (world : World FileTree) :
    world.SameRecords (makeArtifacts w settings world).2 ∧
      (makeArtifacts w settings world).2.artifacts.files = world.artifacts.files ∧
      ∀ root?, (makeArtifacts w settings world).1 = .ok root? →
        root? = w.artifacts? settings := by
  unfold makeArtifacts Workplace.artifacts?
  cases settings.binaryStoragePath.filter (· ≠ "") with
  | none =>
      refine ⟨⟨rfl, rfl⟩, rfl, fun root? h => ?_⟩
      cases h
      rfl
  | some text =>
      have hfiles := Artifacts.files_makeRoot w.directory text world.artifacts
      refine ⟨⟨rfl, rfl⟩, hfiles, fun root? h => ?_⟩
      rcases hmade : Artifacts.makeRoot w.directory text world.artifacts with ⟨tree, fault | root⟩
      · dsimp only at h
        rw [hmade] at h
        cases h
      · dsimp only at h
        rw [hmade] at h
        cases h
        exact congrArg some (Artifacts.root_of_makeRoot hmade)

/-- A text is printed if there is an answer and it can be written. -/
theorem printed_eq_ok {command : Command} {result : Except Failure Answer} {text : String} :
    (result >>= fun answer => (command.printed answer).mapError .unwritable).mapError
        RunFault.failure = .ok text ↔
      ∃ answer, result = .ok answer ∧ command.printed answer = .ok text := by
  cases result with
  | error failure => exact ⟨nofun, fun ⟨_, h, _⟩ => by cases h⟩
  | ok answer =>
      show ((command.printed answer).mapError Failure.unwritable).mapError _ = _ ↔ _
      cases hprinted : command.printed answer with
      | error fault =>
          refine ⟨nofun, fun ⟨_, h, htext⟩ => ?_⟩
          cases h
          cases hprinted.symm.trans htext
      | ok printed =>
          constructor
          · rintro ⟨⟩
            exact ⟨answer, rfl, hprinted⟩
          · rintro ⟨_, h, htext⟩
            cases h
            cases hprinted.symm.trans htext
            rfl

/-- Either a run does not come to its operation, or it performs it and prints the answer. In any
case no more than directories were made before. -/
theorem perform_cases (w : Workplace) (settings : Settings) (user : Option String)
    (now : CivilTime) (command : Command) (world : World FileTree) :
    ∃ ready : World FileTree, world.SameRecords ready ∧
      ready.artifacts.files = world.artifacts.files ∧
      ((∃ fault, perform w settings user now command world = (.error fault, ready)) ∨
        ∃ op, command.asked { w with tree := ready.artifacts } = .ok op ∧
          ∃ result after,
            ((w.registry settings user).perform now op).start ready = (result, after) ∧
            (perform w settings user now command world).2 = after ∧
            ∀ text, (perform w settings user now command world).1 = .ok text ↔
              ∃ answer, result = .ok answer ∧ command.printed answer = .ok text) := by
  obtain ⟨hsame, hfiles, hroot⟩ := makeArtifacts_spec w settings world
  rcases hmade : makeArtifacts w settings world with ⟨fault | root?, ready⟩
  · rw [hmade] at hsame hfiles
    refine ⟨ready, hsame, hfiles, .inl ⟨fault, ?_⟩⟩
    unfold perform
    rw [hmade]
  · rw [hmade] at hsame hfiles hroot
    obtain rfl := hroot root? rfl
    refine ⟨ready, hsame, hfiles, ?_⟩
    cases hasked : command.asked { w with tree := ready.artifacts } with
    | error fault =>
        refine .inl ⟨fault, ?_⟩
        unfold perform
        rw [hmade]
        dsimp only
        rw [operation_eq, hasked]
        rfl
    | ok op =>
        refine .inr ⟨op, rfl, ?_⟩
        rcases hstart : ((w.registry settings user).perform now op).start ready with
          ⟨result, after⟩
        have hrun : perform w settings user now command world =
            ((result >>= fun answer => (command.printed answer).mapError .unwritable).mapError
              .failure, after) := by
          have hprinted := start_printed command hstart
          unfold perform
          rw [hmade]
          dsimp only
          rw [operation_eq, hasked]
          exact congrArg (fun run => (run.1.mapError RunFault.failure, run.2)) hprinted
        refine ⟨result, after, rfl, by rw [hrun], fun text => ?_⟩
        rw [hrun]
        exact printed_eq_ok

/-- The state once a database was opened. -/
def Workplace.opened (w : Workplace) (d : Database) : World FileTree :=
  ⟨some d.table, d.readOnly, (w.keep d.path d.table).tree, 0,
    [⟨.schemaReady, "Plugin metadata schema ready"⟩]⟩

theorem Workplace.opened_artifacts {d : Database} (h : d.path = none) :
    (w.opened d).artifacts = w.tree := by
  show (w.keep d.path d.table).tree = w.tree
  rw [h]
  rfl

/-- The files keep the state after an operation on a database that was opened: its table is put back,
or it was not written. -/
theorem Database.Opened.keeps_performed {place : DatabasePlace} {d : Database}
    (h : d.Opened w place) {before world : World FileTree} (hsame : (w.opened d).SameRecords before)
    (hfiles : before.artifacts.files = (w.opened d).artifacts.files) {r : Registry FileTree}
    {root? : Option Path} (hstore : r.store = root?.map Artifacts.inDirectory) {now : CivilTime}
    {op : PluginRegistry.Operation} {result : Except Failure Answer}
    (hstart : (r.perform now op).start before = (result, world)) :
    ({ w with tree := world.artifacts }.refresh d.path (world.table.getD .empty)).Keeps
      (w.fileOf? place) world := by
  have htable : before.table ≠ none := by
    rw [hsame.table]
    nofun
  have hguards := r.keepsUp_guards.perform now op before htable
  have hthins := (Registry.keepsUp_thins hstore).perform now op before
  rw [hstart] at hguards hthins
  refine h.keeps_refresh hguards.1 (fun hreadOnly => ?_) fun hpath path => ?_
  · exact (hguards.2 (hsame.readOnly.trans hreadOnly)).table.trans hsame.table
  · have hthin := hthins path
    rw [hfiles, w.opened_artifacts hpath] at hthin
    exact hthin

theorem code_fail (setup : Log.Setup) (now : CivilTime) (before : String) (fault : RunFault) :
    (fail setup now before fault).ending.code ≠ 0 := by
  unfold fail
  split
  · exact Nat.one_ne_zero
  · exact Nat.one_ne_zero

/-- Either a run ends badly with nothing done, or the database is open. Then the table is put back,
and the run ends well if the operation was performed and its answer printed. -/
theorem runWith_cases (settings : Settings) (request : Request) (now : CivilTime) (before : String)
    (w : Workplace) {outcome : Outcome} {after : Workplace}
    (h : runWith settings request now before w = (outcome, after)) :
    (after = w ∧ outcome.ending.code ≠ 0) ∨
      ∃ place d, DatabasePlace.ofAddress settings.databaseUrl = .ok place ∧
        w.openDatabase place = .ok d ∧ ∃ result world,
          perform (w.keep d.path d.table) settings request.user now request.command (w.opened d) =
            (result, world) ∧
          after = { w with tree := world.artifacts }.refresh d.path (world.table.getD .empty) ∧
          ((outcome.ending.code = 0 ∧ result = .ok outcome.output) ∨
            (outcome.ending.code ≠ 0 ∧ ∃ fault, result = .error fault)) := by
  unfold runWith at h
  cases hsetup : Log.Setup.ofNames settings.logLevel settings.logFormat with
  | error fault =>
      rw [hsetup] at h
      cases h
      exact .inl ⟨rfl, Nat.one_ne_zero⟩
  | ok setup =>
      rw [hsetup] at h
      dsimp only at h
      cases hplace : DatabasePlace.ofAddress settings.databaseUrl with
      | error fault =>
          rw [hplace] at h
          cases h
          exact .inl ⟨rfl, code_fail _ _ _ _⟩
      | ok place =>
          have hbind : (DatabasePlace.ofAddress settings.databaseUrl).bind w.openDatabase =
              w.openDatabase place := by
            rw [hplace]
            rfl
          rw [hbind] at h
          cases hopen : w.openDatabase place with
          | error fault =>
              rw [hopen] at h
              cases h
              exact .inl ⟨rfl, code_fail _ _ _ _⟩
          | ok d =>
              rw [hopen] at h
              dsimp only at h
              refine .inr ⟨place, d, rfl, hopen, ?_⟩
              rcases hperform : perform (w.keep d.path d.table) settings request.user now
                request.command (w.opened d) with ⟨result, world⟩
              refine ⟨result, world, rfl, ?_⟩
              have hstart : ((Catalog.create : Action FileTree Unit).start
                  ⟨some d.table, d.readOnly, (w.keep d.path d.table).tree, 0, []⟩).2 = w.opened d :=
                rfl
              rw [hstart, hperform] at h
              dsimp only at h
              split at h
              · cases h
                exact ⟨rfl, .inl ⟨rfl, rfl⟩⟩
              · cases h
                exact ⟨rfl, .inr ⟨Nat.one_ne_zero, _, rfl⟩⟩
              · cases h
                exact ⟨rfl, .inr ⟨Nat.one_ne_zero, _, rfl⟩⟩
              · cases h
                exact ⟨rfl, .inr ⟨code_fail _ _ _ _, _, rfl⟩⟩

/-- Either a run is over with nothing done, or it has its settings. -/
theorem run_cases {now : CivilTime} {outcome : Outcome} {after : Workplace}
    (h : run environment now words w = (outcome, after)) :
    (after = w ∧ (outcome.ending.code = 0 → Request.read words = .error .help)) ∨
      ∃ request settings before, w.configured? environment words = some (request, settings) ∧
        runWith settings request now before w = (outcome, after) := by
  unfold run at h
  unfold Workplace.configured?
  cases hread : Request.read words with
  | error stop =>
      rw [hread] at h
      cases stop with
      | help =>
          cases h
          exact .inl ⟨rfl, fun _ => rfl⟩
      | fault fault =>
          cases h
          exact .inl ⟨rfl, nofun⟩
  | ok request =>
      rw [hread] at h
      dsimp only at h
      cases hdotenv : w.dotenv with
      | error fault =>
          rw [hdotenv] at h
          cases h
          exact .inl ⟨rfl, nofun⟩
      | ok dotenv =>
          rw [hdotenv] at h
          dsimp only at h
          rcases hsettings : request.settings environment dotenv with ⟨rejection | settings, count⟩
          · rw [hsettings] at h
            cases h
            exact .inl ⟨rfl, nofun⟩
          · rw [hsettings] at h
            refine .inr ⟨request, settings, _, ?_, h⟩
            simp only [Except.toOption, hsettings, Option.bind_eq_bind, Option.bind_some,
              Option.pure_def]

/-! ## Runs -/

/-- **What a run leaves.** A run that ends with status 0 shows a help text, or it has performed the
operation of its command once, prints the answer, and the files keep the state after it. A run that
ends otherwise has changed nothing, unless the operation was performed and its answer cannot be
written for an entry under the name of a time, or a record was to be removed whose row has that of
another plugin. -/
theorem run_leaves (environment : List (String × String)) (now : CivilTime) (words : List String)
    (w : Workplace) :
    ((run environment now words w).1.ending.code = 0 →
      (Request.read words = .error .help ∧ (run environment now words w).2 = w) ∨
      ∃ (u : Undertaking environment words w) (answer : Answer) (world : World FileTree),
        u.performed now = (.ok answer, world) ∧
        u.request.command.printed answer = .ok (run environment now words w).1.output ∧
        (run environment now words w).2.Keeps (w.databaseFile? environment words) world) ∧
    ((run environment now words w).1.ending.code ≠ 0 →
      w.Same (w.databaseFile? environment words) (run environment now words w).2 ∨
      ∃ (u : Undertaking environment words w) (result : Except Failure Answer)
          (world : World FileTree),
        u.performed now = (result, world) ∧
        (run environment now words w).2.Keeps (w.databaseFile? environment words) world ∧
        ((∃ p, result = .ok (.plugin p) ∧ p.HasStray) ∨
          ∃ id user row, u.operation = .delete id user ∧ u.before.row? id = some row ∧
            ¬row.Names id)) := by
  rcases hrun : run environment now words w with ⟨outcome, after⟩
  rcases run_cases hrun with ⟨rfl, hhelp⟩ | ⟨request, settings, before, hconfigured, hrunWith⟩
  · exact ⟨fun hcode => .inl ⟨hhelp hcode, rfl⟩, fun _ => .inl (.refl _ _)⟩
  rcases runWith_cases settings request now before w hrunWith with
    ⟨rfl, hcode⟩ | ⟨place, d, hplace, hopen, result, world, hperform, rfl, hends⟩
  · exact ⟨fun h => absurd h hcode, fun _ => .inl (.refl _ _)⟩
  have hopened := Workplace.openDatabase_eq_ok hopen
  have hfile? : w.databaseFile? environment words = w.fileOf? place := by
    unfold Workplace.databaseFile?
    simp only [hconfigured, hplace, Except.toOption, Option.bind_eq_bind, Option.bind_some]
  rw [hfile?]
  obtain ⟨ready, hsame, hfiles, hcases⟩ := perform_cases (w.keep d.path d.table) settings
    request.user now request.command (w.opened d)
  rw [hperform] at hcases
  have hbefore : w.Keeps (w.fileOf? place) ready := hopened.keeps hsame.table hfiles
  have htable : ready.table ≠ none := by
    rw [hsame.table]
    nofun
  rcases hcases with ⟨fault, he⟩ | ⟨op, hmeant, answered, left, hstart, rfl, hprinted⟩
  · -- the operation was not reached, and directories are all that was made
    cases he
    have hafter := hopened.keeps_refresh (by rw [hsame.table]; nofun)
      (fun _ => hsame.table) (fun hpath _ => .inl (by rw [hfiles, w.opened_artifacts hpath]))
    rcases hends with ⟨_, hok⟩ | ⟨hcode, _⟩
    · cases hok
    · exact ⟨fun h => absurd h hcode, fun _ => .inl (hbefore.same hafter htable)⟩
  rw [Workplace.keep_tree] at hmeant
  rw [Workplace.registry_keep] at hstart
  let u : Undertaking environment words w :=
    { request, settings, before := ready, operation := op, configured := hconfigured
      kept := hfile? ▸ hbefore
      stands := fun path hpath => by
        rw [hfiles]
        exact hopened.stands (hfile? ▸ hpath)
      fresh := fun hnone => hsame.table.trans
        (congrArg some (hopened.memory (hfile? ▸ hnone)).1)
      meant := hmeant }
  have hperformed : u.performed now = (answered, world) := hstart
  have hafter := hopened.keeps_performed hsame hfiles (r := w.registry settings request.user) rfl
    hstart
  rcases hends with ⟨hcode, hok⟩ | ⟨hcode, fault, herror⟩
  · obtain ⟨answer, rfl, htext⟩ := (hprinted outcome.output).mp hok
    exact ⟨fun _ => .inr ⟨u, answer, world, hperformed, htext, hafter⟩, fun h => absurd hcode h⟩
  · refine ⟨fun h => absurd h hcode, fun _ => ?_⟩
    have hnone : ∀ answer text, answered = .ok answer →
        request.command.printed answer ≠ .ok text := by
      intro answer text hanswer htext
      cases herror.symm.trans ((hprinted text).mpr ⟨answer, hanswer, htext⟩)
    have hactor := Command.settlesActor_of_asked hmeant
      (r := w.registry settings request.user) fun _ => rfl
    rcases kept_of_not_printed hactor htable hstart hnone with hk | hexception
    · exact .inl (hbefore.same (hafter.congr hk.table.symm (by rw [hk.artifacts])) htable)
    · exact .inr ⟨u, answered, world, hperformed, hafter, hexception⟩

/-- Where the database of the next runs is. -/
def besideRecords : List (String × String) := [("PLUGININFO_DATABASE_URL", "sqlite:///p.db")]

/-- A directory with two records of a plugin. The second one has an entry under the name of a time,
beside the time itself, and it is no text. -/
def withRecords : Workplace where
  directory := ["desk"]
  tree := ⟨[(["desk"], .directory),
    (["desk", "first.yml"], .file (Text.encodeUtf8 "id: acme.a\n")),
    (["desk", "second.yml"], .file (Text.encodeUtf8
      ("id: acme.a\ndescription: changed\ncreateTs: 2020-01-01T00:00:00Z\n" ++
        "create_ts: !!binary /w==\n")))]⟩

/-- The directory once the first record was imported. -/
def withFirst : Workplace := (run besideRecords default ["import", "first.yml"] withRecords).2

/-- To import the second record over the first ends with a status other than 0, and yet the record
is changed. -/
theorem run_leaves_unprinted :
    (run besideRecords default ["import", "second.yml"] withFirst).1.ending.code ≠ 0 ∧
    ¬withFirst.Same (some ["desk", "p.db"])
      (run besideRecords default ["import", "second.yml"] withFirst).2 ∧
    ∃ (u : Undertaking besideRecords ["import", "second.yml"] withFirst) (p : Plugin)
        (world : World FileTree),
      u.performed default = (.ok (.plugin p), world) ∧ p.HasStray ∧
      (run besideRecords default ["import", "second.yml"] withFirst).2.Keeps
        (some ["desk", "p.db"]) world := by
  -- what the run does is computed once
  obtain ⟨hcode, hbodies, hfile?, hcommand⟩ :
      (run besideRecords default ["import", "second.yml"] withFirst).1.ending.code ≠ 0 ∧
      ((run besideRecords default ["import", "second.yml"] withFirst).2.tableAt
          ["desk", "p.db"]).map (fun t => t.rows.map fun row => row.body.compact) ≠
        (withFirst.tableAt ["desk", "p.db"]).map (fun t => t.rows.map fun row => row.body.compact) ∧
      withFirst.databaseFile? besideRecords ["import", "second.yml"] = some ["desk", "p.db"] ∧
      (withFirst.configured? besideRecords ["import", "second.yml"]).map
        (fun found => found.1.command) = some (.importPlugin "second.yml") := by
    decide +kernel
  have hchanged : ¬withFirst.Same (some ["desk", "p.db"])
      (run besideRecords default ["import", "second.yml"] withFirst).2 := by
    intro hsame
    rw [hsame.tableAt rfl] at hbodies
    exact hbodies rfl
  have hleft := (run_leaves besideRecords default ["import", "second.yml"] withFirst).2 hcode
  rw [hfile?] at hleft
  obtain ⟨u, result, world, hperformed, hkept, ⟨p, rfl, hstray⟩ | ⟨id, user, row, hdelete, _⟩⟩ :=
    hleft.resolve_left hchanged
  · exact ⟨hcode, hchanged, u, p, world, hperformed, hstray, hkept⟩
  · -- nothing was to be removed
    rw [u.configured] at hcommand
    have himport : u.request.command = .importPlugin "second.yml" := Option.some.inj hcommand
    have hmeant := u.meant
    rw [himport, hdelete] at hmeant
    dsimp only [Command.asked] at hmeant
    cases hread : fromFile { withFirst with tree := u.before.artifacts } (some "second.yml")
        Plugin.read with
    | error fault =>
        rw [hread] at hmeant
        cases hmeant
    | ok candidate =>
        rw [hread] at hmeant
        cases hmeant

end PluginRegistry.CommandLine
