import PluginRegistry.Proofs.ArtifactFrame
import PluginRegistry.Proofs.LoggedEntries
import PluginRegistry.Proofs.LogLines

/-!
# Line breaks in the log

Whoever names plugins, versions and users must not be able to start a line of the log. Nearly all
that the registry and its store log is made of cleaned values. One entry is not: when an artifact
could not be removed, the fault is shown as it is, and some faults of the store in a directory show
the key that was asked for. That is so if the key leads out of the root, or if there is a directory
in place of the file. `Artifacts.Exposes` says that such a key has a line break in it.

So an operation breaks a line exactly if it removes a release with such a key. Nothing else that it
logs does, whoever asks for it and with whatever arguments.
-/

namespace PluginRegistry

/-! ## Entries that break the line -/

namespace Log.Entry

/-- The entry was made by the registry or by the store of artifacts. -/
def OfService (e : Entry) : Prop := e.source = .service ∨ e.source = .artifacts

instance : DecidablePred OfService := fun _ => inferInstanceAs (Decidable (_ ∨ _))

/-- It was, and there is a line break on its line. -/
def Breaks (e : Entry) : Prop := e.OfService ∧ ¬OnOneLine e.line

instance : DecidablePred Breaks := fun _ => inferInstanceAs (Decidable (_ ∧ _))

theorem onOneLine_line {e : Entry} : OnOneLine e.line ↔ OnOneLine e.message := by
  have hname : OnOneLine e.level.name := by
    cases e.level <;> decide
  have hblank : OnOneLine " " := by decide
  unfold line
  rw [onOneLine_append, onOneLine_append]
  exact and_iff_right ⟨hname, hblank⟩

theorem not_breaks_of_query {e : Entry} (h : Catalog.OfQuery e) : ¬e.Breaks := by
  rintro ⟨hservice | hartifacts, _⟩
  · cases h.symm.trans hservice
  · cases h.symm.trans hartifacts

theorem not_breaks_of_message {e : Entry} (h : OnOneLine e.message) : ¬e.Breaks :=
  fun hbreaks => hbreaks.2 (onOneLine_line.mpr h)

theorem not_breaks_audit (topic : Topic) (action user plugin version : Json) :
    ¬Breaks ⟨topic, Audit.line ⟨action, user, plugin, version, .bool true⟩⟩ := by
  have hflag : OnOneLine (Json.bool true).display := by decide
  exact not_breaks_of_message (Audit.onOneLine_line hflag)

theorem selection_breaks : Selection fun e => decide e.Breaks where
  query _ h := decide_eq_false (not_breaks_of_query h)
  release _ _ _ _ := decide_eq_false (not_breaks_audit _ _ _ _ _)
  plugin _ _ _ _ := decide_eq_false (not_breaks_audit _ _ _ _ _)

end Log.Entry

/-! ## Faults that show a key -/

namespace Artifacts

/-- The removal of an artifact fails with a fault that shows its key. -/
inductive ShowsKey (root : Path) (t : FileTree) (key : String) : Prop
  /-- The key leads out of the root. -/
  | outside (h : pathOf root key = .error (.error (.artifact .outsideRoot key .resolve)))
  /-- There is a directory where the file should be. -/
  | directory {path : Path} (hpath : pathOf root key = .ok path)
    (hdirectory : t.status path = .ok .directory)

/-- The key is shown, and it has a line break. -/
def Exposes (root : Path) (t : FileTree) (key : String) : Prop :=
  ¬Log.OnOneLine key ∧ ShowsKey root t key

/-- A key that leads out of the root is shown. -/
theorem onOneLine_outsideRoot {key : String} :
    Log.OnOneLine (StoreFault.error (.artifact .outsideRoot key .resolve)).message ↔
      Log.OnOneLine key := by
  show Log.OnOneLine ("Artifact key escapes storage root: " ++ key) ↔ _
  rw [Log.onOneLine_append]
  exact and_iff_right (by decide)

/-- The key of an artifact that is no file is shown. -/
theorem onOneLine_deleting {key : String} (fault : FileFault) :
    Log.OnOneLine (StoreFault.error (.artifact (.deleting fault) key .delete)).message ↔
      Log.OnOneLine key := by
  show Log.OnOneLine ("Failed to delete artifact " ++ key ++ ": " ++ fault.message) ↔ _
  have hwords : Log.OnOneLine "Failed to delete artifact " := by decide
  have hcolon : Log.OnOneLine ": " := by decide
  rw [Log.onOneLine_append, Log.onOneLine_append, Log.onOneLine_append]
  exact ⟨fun h => h.1.1.2, fun h => ⟨⟨⟨hwords, h⟩, hcolon⟩, fault.onOneLine_message⟩⟩

/-- What the store in a directory answers when it is asked to delete. -/
inductive DeleteAnswer (root : Path) (t : FileTree) (key : String) : StoreAnswer FileTree Unit → Prop
  /-- A fault shows the key. -/
  | shown {fault : StoreFault} (hshows : ShowsKey root t key)
    (hfault : Log.OnOneLine fault.message ↔ Log.OnOneLine key) :
    DeleteAnswer root t key (.error fault, t, [])
  /-- A fault does not show it. -/
  | hidden {fault : StoreFault} (hshows : ¬ShowsKey root t key)
    (hfault : Log.OnOneLine fault.message) : DeleteAnswer root t key (.error fault, t, [])
  /-- There is no file any more. -/
  | done {left : FileTree} {entries : List Log.Entry} (hshows : ¬ShowsKey root t key)
    (hentries : ∀ e ∈ entries, Log.OnOneLine e.message) :
    DeleteAnswer root t key (.ok (), left, entries)

theorem delete_answer (root : Path) (t : FileTree) (key : String) :
    DeleteAnswer root t key (delete root key t) := by
  unfold delete
  rcases pathOf_cases root key with ⟨fault, hpath⟩ | hpath | ⟨path, hpath⟩
  · rw [hpath]
    refine .hidden ?_ fault.onOneLine_message
    rintro (hshown | ⟨hshown, _⟩)
    · cases hpath.symm.trans hshown
    · cases hpath.symm.trans hshown
  · rw [hpath]
    exact .shown (.outside hpath) onOneLine_outsideRoot
  · -- what stands at the path decides, and only a directory is shown
    have hshows : ShowsKey root t key ↔ t.status path = .ok .directory := by
      constructor
      · rintro (hshown | ⟨hshown, hdirectory⟩)
        · cases hpath.symm.trans hshown
        · cases hpath.symm.trans hshown
          exact hdirectory
      · exact .directory hpath
    rw [hpath]
    dsimp only
    unfold FileTree.probe
    cases hstatus : t.status path with
    | error cause =>
        have hother : ¬ShowsKey root t key := fun h => by cases hstatus.symm.trans (hshows.mp h)
        cases cause with
        | nameTooLong => exact .hidden hother (FileFault.onOneLine_message _)
        | _ => exact .done hother (List.forall_mem_nil _)
    | ok node =>
        cases node with
        | directory => exact .shown (hshows.mpr hstatus) (onOneLine_deleting _)
        | file content =>
            refine .done (fun h => by cases hstatus.symm.trans (hshows.mp h)) fun e he => ?_
            rw [List.mem_singleton.mp he, Log.onOneLine_append]
            exact ⟨by decide, Log.onOneLine_sanitizeText _ _⟩

end Artifacts

namespace Registry

open PluginRegistry.Action Log.Entry

section Attempts

variable {root : Path} {r : Registry FileTree} {t : FileTree}

/-- The entry about an artifact that is left shows the fault, and nothing else that is not clean. -/
theorem leftEntry_breaks {plugin : String} {version : Json} {key : Option String}
    {fault : StoreFault} :
    (leftEntry plugin version key fault).Breaks ↔ ¬Log.OnOneLine fault.message := by
  have hservice : (leftEntry plugin version key fault).OfService := .inl rfl
  have hwords : Log.OnOneLine "Failed to delete binary for " := by decide
  have hkey : Log.OnOneLine " (key=" := by decide
  have hleft : Log.OnOneLine "), artifact left orphaned: " := by decide
  have hmessage : Log.OnOneLine (leftEntry plugin version key fault).message ↔
      Log.OnOneLine fault.message := by
    unfold leftEntry
    dsimp only
    simp only [Log.onOneLine_append]
    exact and_iff_right ⟨⟨⟨⟨hwords, Log.onOneLine_releaseName _ _⟩, hkey⟩,
      Log.onOneLine_sanitize _ _⟩, hleft⟩
  unfold Breaks
  rw [onOneLine_line, hmessage]
  exact and_iff_right hservice

/-- **An attempt to remove an artifact breaks a line exactly if it exposes the key.** -/
theorem cleanup_breaks (hstore : r.store = some (Artifacts.inDirectory root)) (plugin : String)
    (version : Json) :
    ((∃ e ∈ (r.cleanup plugin version t).2, e.Breaks) ↔
      Artifacts.Exposes root t (Artifacts.key plugin version.display)) ∧
    ∀ e ∈ (r.cleanup plugin version t).2, e.Breaks → e.topic = .artifactLeft := by
  have hleft : ∀ fault : StoreFault, (∃ e ∈ [leftEntry plugin version
      (some (Artifacts.key plugin version.display)) fault], e.Breaks) ↔
        ¬Log.OnOneLine fault.message := by
    intro fault
    simp only [List.mem_singleton, exists_eq_left, leftEntry_breaks]
  have hanswer := Artifacts.delete_answer root t (Artifacts.key plugin version.display)
  unfold cleanup
  rw [hstore]
  dsimp only [Artifacts.inDirectory]
  generalize Artifacts.delete root (Artifacts.key plugin version.display) t = answer at hanswer ⊢
  cases hanswer with
  | shown hshows hfault =>
      refine ⟨(hleft _).trans ?_, fun e he _ => List.mem_singleton.mp he ▸ rfl⟩
      rw [hfault]
      exact (and_iff_left hshows).symm
  | hidden hshows hfault =>
      refine ⟨(hleft _).trans ?_, fun e he _ => List.mem_singleton.mp he ▸ rfl⟩
      exact iff_of_false (not_not.mpr hfault) fun hexposes => hshows hexposes.2
  | done hshows hentries =>
      have hsafe : ∀ e ∈ _, ¬Breaks e := fun e he => not_breaks_of_message (hentries e he)
      refine ⟨iff_of_false ?_ fun hexposes => hshows hexposes.2, fun e he hbreaks => ?_⟩
      · rintro ⟨e, he, hbreaks⟩
        exact hsafe e he hbreaks
      · exact absurd hbreaks (hsafe e he)

/-- So do the attempts for some versions, if one of them does on the tree that is left by then. -/
theorem cleanups_breaks (hstore : r.store = some (Artifacts.inDirectory root)) (plugin : String)
    (versions : List String) :
    (∃ e ∈ (r.cleanups plugin versions t).2, e.Breaks) ↔
      Artifacts.InTurn root (Artifacts.Exposes root) (versions.map (Artifacts.key plugin)) t := by
  induction versions generalizing t with
  | nil =>
      refine iff_of_false (fun ⟨e, he, _⟩ => by cases he) ?_
      rintro ⟨before, key, after, heq, _⟩
      simp at heq
  | cons version rest ih =>
      have hleft : (r.cleanup plugin (.str version) t).1
          = Artifacts.without root (Artifacts.key plugin version) t := by
        rw [cleanup_fst, artifactsWithout_inDirectory hstore]
      have hfirst : (∃ e ∈ (r.cleanup plugin (.str version) t).2, e.Breaks) ↔
          Artifacts.Exposes root t (Artifacts.key plugin version) :=
        (cleanup_breaks hstore plugin (.str version)).1
      unfold cleanups
      dsimp only
      rw [List.map_cons, Artifacts.inTurn_cons, ← hfirst, ← hleft, ← ih]
      simp only [List.mem_append, or_and_right, exists_or]

end Attempts

/-! ## What the operations log -/

section Operations

variable {σ : Type}

theorem safe_of_query {α : Type} {x : Action σ α} (h : x.Logs Catalog.OfQuery) :
    x.Logs fun e => ¬e.Breaks :=
  h.mono fun _ => not_breaks_of_query

theorem safe_note {topic : Log.Topic} {message : String} (h : Log.OnOneLine message) :
    (note topic message : Action σ Unit).Logs fun e => ¬e.Breaks :=
  logs_note (not_breaks_of_message h)

theorem safe_audit (topic : Log.Topic) (action user plugin : String) (version : Json) :
    (audit topic action user plugin version : Action σ Unit).Logs fun e => ¬e.Breaks :=
  logs_note (not_breaks_audit _ _ _ _ _)

theorem safe_validate (r : Registry σ) (plugin : Plugin) :
    (r.validate plugin).Logs fun e => ¬e.Breaks := by
  unfold validate
  dsimp only
  split
  · exact logs_pure _
  · refine (safe_note ?_).bind fun _ => logs_refuse _
    simp only [Log.onOneLine_append]
    exact ⟨⟨by decide, Log.onOneLine_sanitizeText _ _⟩,
      ⟨by decide, Log.onOneLine_toString _⟩, by decide⟩

theorem safe_upsert (r : Registry σ) (now : CivilTime) (plugin : Plugin) :
    (r.upsert now plugin).Logs fun e => ¬e.Breaks := by
  unfold upsert
  refine (logs_requireCopy _).bind fun _ =>
    (safe_of_query (Catalog.logs_byId? _ _)).bind fun found => ?_
  dsimp only
  split
  · refine (safe_validate _ _).bind fun _ =>
      (safe_of_query (Catalog.logs_insert _ _ _ _)).bind fun _ => ?_
    refine (safe_note ?_).bind fun _ => logs_pure _
    exact Log.onOneLine_append.mpr ⟨by decide, Log.onOneLine_sanitizeText _ _⟩
  · split
    · exact logs_throw_bind _ _
    · refine (safe_validate _ _).bind fun _ =>
        (safe_of_query (Catalog.logs_update _ _ _ _)).bind fun _ => ?_
      refine (safe_note ?_).bind fun _ => logs_pure _
      simp only [Log.onOneLine_append]
      exact ⟨⟨by decide, Log.onOneLine_sanitizeText _ _⟩,
        ⟨by decide, Log.onOneLine_toString _⟩, by decide⟩

/-- A change that is written over a record and then told to the audit. -/
theorem safe_written {α : Type} (timing : Timing) (now : CivilTime) (id : String) (plugin : Plugin)
    {topic : Log.Topic} {action user about : String} {version : Json} (result : Plugin → α) :
    (Catalog.update timing now id plugin >>= fun written =>
      audit topic action user about version >>= fun _ => pure (result written) :
        Action σ α).Logs fun e => ¬e.Breaks :=
  (safe_of_query (Catalog.logs_update _ _ _ _)).bind fun _ =>
    (safe_audit _ _ _ _ _).bind fun _ => logs_pure _

theorem safe_createRelease (r : Registry σ) (now : CivilTime) (id : String) (release : Release)
    (user : Option String) : (r.createRelease now id release user).Logs fun e => ¬e.Breaks := by
  refine (logs_actor _ _).bind fun actor => (logs_requireCopy _).bind fun _ => ?_
  refine (safe_of_query (Catalog.logs_byId _ _)).bind fun current => ?_
  exact (safe_validate _ _).bind fun _ => safe_written _ _ _ _ fun written => written

theorem safe_upsertRelease (r : Registry σ) (now : CivilTime) (id : String) (release : Release)
    (user : Option String) : (r.upsertRelease now id release user).Logs fun e => ¬e.Breaks := by
  refine (logs_actor _ _).bind fun actor => (logs_requireCopy _).bind fun _ => ?_
  refine (safe_of_query (Catalog.logs_byId _ _)).bind fun current => ?_
  dsimp only
  split
  · exact logs_throw_bind _ _
  · exact (safe_validate _ _).bind fun _ => safe_written _ _ _ _ fun written => written

theorem safe_preferRelease (r : Registry σ) (now : CivilTime) (id version : String)
    (preference : Json) (user : Option String) :
    (r.preferRelease now id version preference user).Logs fun e => ¬e.Breaks := by
  refine (safe_of_query (Catalog.logs_byId _ _)).bind fun current => ?_
  split
  · exact logs_refuse _
  · exact (logs_actor _ _).bind fun actor => safe_written _ _ _ _ fun _ => _

theorem safe_findByService (r : Registry σ) (service : Option String) :
    (r.findByService service).Logs fun e => ¬e.Breaks := by
  unfold findByService
  split
  · exact safe_of_query (Catalog.logs_byService _ _)
  · exact logs_refuse _

/-- Removing releases breaks a line only where an artifact is left. -/
theorem logs_dropReleases {r : Registry FileTree} {root : Path}
    (hstore : r.store = some (Artifacts.inDirectory root)) (now : CivilTime) (id : String)
    (version : Json) (change : Plugin → Plugin) (user : Option String) :
    (r.dropReleases now id version change user).Logs
      fun e => e.Breaks → e.topic = .artifactLeft := by
  have hsafe : ∀ e : Log.Entry, ¬e.Breaks → e.Breaks → e.topic = .artifactLeft :=
    fun e h hbreaks => absurd hbreaks h
  have hartifact : (r.deleteArtifact id version).Logs
      fun e => e.Breaks → e.topic = .artifactLeft := by
    intro w
    rw [deleteArtifact_eq_cleanup]
    exact ⟨_, rfl, (cleanup_breaks hstore id version).2⟩
  refine ((safe_of_query (Catalog.logs_byId _ _)).mono hsafe).bind fun current => ?_
  refine ((safe_of_query (Catalog.logs_update _ _ _ _)).mono hsafe).bind fun written => ?_
  refine (logs_actor _ _).bind fun actor => ((safe_audit _ _ _ _ _).mono hsafe).bind fun _ => ?_
  exact hartifact.bind fun _ => logs_pure _

theorem logs_delete {r : Registry FileTree} {root : Path}
    (hstore : r.store = some (Artifacts.inDirectory root)) (now : CivilTime) (id : String)
    (user : Option String) :
    (r.delete now id user).Logs fun e => e.Breaks → e.topic = .artifactLeft := by
  have hsafe : ∀ e : Log.Entry, ¬e.Breaks → e.Breaks → e.topic = .artifactLeft :=
    fun e h hbreaks => absurd hbreaks h
  have hrelease : ∀ release : Release, (r.deleteRelease now id release.version user).Logs
      fun e => e.Breaks → e.topic = .artifactLeft := by
    intro release
    exact logs_dropReleases hstore _ _ _ _ _
  refine ((safe_of_query (Catalog.logs_byId? _ _)).mono hsafe).bind fun found => ?_
  cases found with
  | none => exact logs_pure _
  | some p =>
      refine (logs_forIn hrelease p.releases).bind fun _ => ?_
      refine ((safe_of_query (Catalog.logs_delete _ _)).mono hsafe).bind fun _ => ?_
      exact (logs_actor _ _).bind fun actor => (safe_audit _ _ _ _ _).mono hsafe

/-- All but the removals are safe. -/
theorem safe_perform (r : Registry σ) (now : CivilTime) {op : Operation}
    (hdelete : ∀ id user, op ≠ .delete id user)
    (hrelease : ∀ id version user, op ≠ .deleteRelease id version user) :
    (r.perform now op).Logs fun e => ¬e.Breaks := by
  unfold perform
  split
  · exact (safe_of_query (Catalog.logs_all _)).map _
  · exact (safe_findByService _ _).map _
  · exact (safe_of_query (Catalog.logs_byId _ _)).map _
  · exact (safe_validate _ _).map _
  · exact (safe_upsert _ _ _).map _
  · exact absurd rfl (hdelete _ _)
  · exact (safe_createRelease _ _ _ _ _).map _
  · exact (safe_upsertRelease _ _ _ _ _).map _
  · exact absurd rfl (hrelease _ _ _)
  · exact absurd rfl (hrelease _ _ _)
  · exact (safe_preferRelease _ _ _ _ _ _).map _
  · exact ((safe_of_query (Catalog.logs_byId _ _)).bind fun _ => logs_refuse _).map _

end Operations

end Registry

/-! ## Which operations break a line -/

/-- The operation removes a release whose key is exposed: the release that is named, or one of those
of a record that is removed, on the tree that the removals before it left. -/
def Operation.Exposes (root : Path) (w : World FileTree) : Operation → Prop
  | .deleteRelease id (.str version) _ =>
    (w.plugin? id).isSome ∧ Artifacts.Exposes root w.artifacts (Artifacts.key id version)
  | .delete id _ => ∃ p, w.plugin? id = some p ∧
    Artifacts.InTurn root (Artifacts.Exposes root) (p.versions.map (Artifacts.key id)) w.artifacts
  | _ => False

/-- What is picked from the log tells whether an entry that was added breaks a line. -/
theorem World.breaks_of_picked {σ : Type} {w w' : World σ} {entries : List Log.Entry}
    (others : List Log.Entry) (heq : w'.log = w.log ++ entries)
    (hpicked : w'.log.filter (fun e => decide e.Breaks) =
      w.log.filter (fun e => decide e.Breaks) ++ others.filter fun e => decide e.Breaks) :
    (∃ e ∈ entries, e.Breaks) ↔ ∃ e ∈ others, e.Breaks := by
  rw [heq, List.filter_append] at hpicked
  have hsame := List.append_cancel_left hpicked
  have hmem : ∀ {all : List Log.Entry}, (∃ e ∈ all, e.Breaks) ↔
      ∃ e, e ∈ all.filter fun e => decide e.Breaks := by
    intro all
    simp only [List.mem_filter, decide_eq_true_eq]
  rw [hmem, hmem, hsame]

namespace Registry

open PluginRegistry.Action

variable {root : Path} {r : Registry FileTree} {w : World FileTree}

theorem deleteRelease_breaks (hstore : r.store = some (Artifacts.inDirectory root)) (hs : w.Sound)
    (now : CivilTime) (id version : String) (user : Option String) {entries : List Log.Entry}
    (heq : ((r.deleteRelease now id version user).start w).2.log = w.log ++ entries) :
    (∃ e ∈ entries, e.Breaks) ↔
      (w.plugin? id).isSome ∧ Artifacts.Exposes root w.artifacts (Artifacts.key id version) := by
  rcases h : (r.deleteRelease now id version user).start w with ⟨failure | answer, w'⟩
  · -- only where there is no record the removal fails, and then it is not about an artifact
    rw [h] at heq
    have hpicked := dropReleases_picked_of_error Log.Entry.selection_breaks h
    rw [World.breaks_of_picked [] heq (by simpa using hpicked)]
    refine iff_of_false (fun ⟨e, he, _⟩ => by cases he) ?_
    rintro ⟨hsome, _⟩
    obtain ⟨p, hp⟩ := Option.isSome_iff_exists.mp hsome
    obtain ⟨row, _, hrow, _⟩ := hs.row_of_plugin? hp
    obtain ⟨_, _, hok⟩ := deleteRelease_of_row r now version user hs hrow
    cases h.symm.trans hok
  · rw [h] at heq
    have hpicked := (dropReleases_picked Log.Entry.selection_breaks h).2
    obtain ⟨row, p, hrewritten, _⟩ :=
      dropReleases_eq_ok hs (fun p hp => hp.drop version) (fun _ => rfl) h
    have hp := World.plugin?_of_row hrewritten.before hrewritten.held
    rw [World.breaks_of_picked _ heq hpicked, (cleanup_breaks hstore id (.str version)).1, hp]
    exact (and_iff_right rfl).symm

theorem delete_breaks (hstore : r.store = some (Artifacts.inDirectory root)) (hs : w.Sound)
    (now : CivilTime) (id : String) (user : Option String) {entries : List Log.Entry}
    (heq : ((r.delete now id user).start w).2.log = w.log ++ entries) :
    (∃ e ∈ entries, e.Breaks) ↔ ∃ p, w.plugin? id = some p ∧ Artifacts.InTurn root
      (Artifacts.Exposes root) (p.versions.map (Artifacts.key id)) w.artifacts := by
  cases hp : w.plugin? id with
  | none =>
      -- nothing but the query for the record is logged
      obtain ⟨_, w', _, ⟨queries, hlog, hqueries⟩, _, _, hstart⟩ :=
        r.delete_of_missing now user hs hp
      have hsame : ((r.delete now id user).start w).2.log = w.log ++ queries := by
        rw [← hlog]
        exact congrArg (fun answer => answer.2.log) (hstart r.store)
      have hentries : entries = queries := List.append_cancel_left (heq.symm.trans hsame)
      refine iff_of_false ?_ (fun ⟨p, hsome, _⟩ => by cases hsome)
      rintro ⟨e, he, hbreaks⟩
      exact Log.Entry.not_breaks_of_query (hqueries e (hentries ▸ he)) hbreaks
  | some p =>
      obtain ⟨w', hstart, _⟩ := delete_start r now user hs (hs.textFault?_of_plugin hp)
      rw [hstart] at heq
      have hpicked := (delete_picked Log.Entry.selection_breaks hs hp hstart).2
      rw [World.breaks_of_picked _ heq hpicked, cleanups_breaks hstore]
      simp

/-- **An operation breaks a line of the log exactly if it removes a release whose key is exposed.**
The state may have been reached with other validators and another store. Of the entries that the
registry and the store make, only the one about an artifact that was left can break a line. -/
theorem line_breaks_iff (hstore : r.store = some (Artifacts.inDirectory root))
    {r₀ : Registry FileTree} (hw : r₀.Reached w) (now : CivilTime) {op : Operation}
    (hop : op.Proper) :
    ∃ entries, ((r.perform now op).start w).2.log = w.log ++ entries ∧
      ((∃ e ∈ entries, e.Breaks) ↔ op.Exposes root w) ∧
      ∀ e ∈ entries, e.Breaks → e.topic = .artifactLeft := by
  have hs := hw.sound
  have hother : (r.perform now op).Logs (fun e => ¬e.Breaks) → ¬op.Exposes root w →
      ∃ entries, ((r.perform now op).start w).2.log = w.log ++ entries ∧
        ((∃ e ∈ entries, e.Breaks) ↔ op.Exposes root w) ∧
        ∀ e ∈ entries, e.Breaks → e.topic = .artifactLeft := by
    intro hsafe hexposes
    obtain ⟨entries, heq, hnone⟩ := hsafe w
    exact ⟨entries, heq, iff_of_false (fun ⟨e, he, hbreaks⟩ => hnone e he hbreaks) hexposes,
      fun e he hbreaks => absurd hbreaks (hnone e he)⟩
  cases op with
  | deleteRelease id version user =>
      obtain ⟨version, rfl⟩ := hop
      have hstart : ((r.perform now (.deleteRelease id (.str version) user)).start w).2 =
          ((r.deleteRelease now id version user).start w).2 := start_map_snd _ _ _
      obtain ⟨entries, heq, hleft⟩ := logs_dropReleases hstore now id (.str version)
        (·.drop version) user w
      rw [hstart]
      exact ⟨entries, heq, deleteRelease_breaks hstore hs now id version user heq, hleft⟩
  | delete id user =>
      have hstart : ((r.perform now (.delete id user)).start w).2 =
          ((r.delete now id user).start w).2 := start_map_snd _ _ _
      obtain ⟨entries, heq, hleft⟩ := logs_delete hstore now id user w
      rw [hstart]
      exact ⟨entries, heq, delete_breaks hstore hs now id user heq, hleft⟩
  | _ => exact hother (safe_perform r now nofun nofun) id

/-- A plugin without releases, in a registry with all rules. -/
def alone : World FileTree :=
  guarded.run [⟨default, .upsert (.bare "acme.a" [])⟩] (.blank ⟨[(["r"], .directory)]⟩)

/-- A version that leads out of the root, with a line break in it. -/
def forged : String := "../../a\nINFO AUDIT: action=delete"

/-- Removing a release of this version breaks a line of the log. -/
theorem line_breaks_iff_forged :
    ∃ e ∈ ((guarded.perform default (.deleteRelease "acme.a" (.str forged) none)).start alone).2.log,
      e.source = .service ∧ ¬Log.OnOneLine e.line := by
  have hreached : guarded.Reached alone := by
    refine Reached.run (.empty ⟨rfl, rfl⟩) ?_
    decide
  have hstore : guarded.store = some (Artifacts.inDirectory ["r"]) := rfl
  have hproper : (Operation.deleteRelease "acme.a" (.str forged) none).Proper := ⟨forged, rfl⟩
  have hpath : Artifacts.pathOf ["r"] (Artifacts.key "acme.a" forged) = .error (.error
      (.artifact .outsideRoot (Artifacts.key "acme.a" forged) .resolve)) :=
    Artifacts.pathOf_eq_error (by decide) (by decide +kernel)
  obtain ⟨entries, heq, hiff, hleft⟩ := line_breaks_iff hstore hreached default hproper
  have hstored : (alone.plugin? "acme.a").isSome := by decide +kernel
  obtain ⟨e, he, hbreaks⟩ := hiff.mpr ⟨hstored, by decide, .outside hpath⟩
  refine ⟨e, heq ▸ List.mem_append_right _ he, ?_, hbreaks.2⟩
  exact congrArg Log.Topic.source (hleft e he hbreaks)

end Registry

end PluginRegistry
