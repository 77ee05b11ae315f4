import PluginRegistry.Proofs.Effects

/-!
# What is logged

The log only grows, and `Action.Logs` says of all entries that an action adds what they are like,
however the action ends. The queries of the catalog make entries of their own source, and no other
part of the catalog makes any. The registry notes a change of the records once it is done.

What is logged about an artifact depends on the store. `Registry.cleanup` is the one attempt to
remove it, as a function of the artifacts that are there: those that are left, and the entries about
it. A record that is removed has one attempt for each of its releases, in order. Nothing else that
its removal logs is about artifacts, and `Log.Selection` says what that means for entries that are
picked from the log.
-/

namespace PluginRegistry

/-- Entries were added to the log, all of them with the property. -/
def World.Logs {σ : Type} (P : Log.Entry → Prop) (w w' : World σ) : Prop :=
  ∃ entries, w'.log = w.log ++ entries ∧ ∀ e ∈ entries, P e

namespace World

variable {σ : Type} {P : Log.Entry → Prop}

theorem logs_of_eq {w w' : World σ} (h : w'.log = w.log) : w.Logs P w' :=
  ⟨[], by rw [h, List.append_nil], List.forall_mem_nil _⟩

theorem Logs.trans {w₁ w₂ w₃ : World σ} (h : w₁.Logs P w₂) (h' : w₂.Logs P w₃) :
    w₁.Logs P w₃ := by
  obtain ⟨entries, heq, hP⟩ := h
  obtain ⟨more, heq', hP'⟩ := h'
  refine ⟨entries ++ more, ?_, List.forall_mem_append.mpr ⟨hP, hP'⟩⟩
  rw [heq', heq, List.append_assoc]

/-- What none of the added entries is picked for stays as it was. -/
theorem Logs.filter_eq {pick : Log.Entry → Bool} {w w' : World σ}
    (h : w.Logs (fun e => pick e = false) w') : w'.log.filter pick = w.log.filter pick := by
  obtain ⟨entries, heq, hnone⟩ := h
  have hempty : entries.filter pick = [] :=
    List.filter_eq_nil_iff.mpr fun e he => Bool.eq_false_iff.mp (hnone e he)
  rw [heq, List.filter_append, hempty, List.append_nil]

end World

namespace Action

variable {σ α β : Type} {P Q : Log.Entry → Prop}

/-- All entries that the action adds have the property, however it ends. -/
def Logs (P : Log.Entry → Prop) (x : Action σ α) : Prop := ∀ w : World σ, w.Logs P (start x w).2

theorem Logs.mono {x : Action σ α} (h : x.Logs P) (hPQ : ∀ e, P e → Q e) : x.Logs Q := by
  intro w
  obtain ⟨entries, heq, hP⟩ := h w
  exact ⟨entries, heq, fun e he => hPQ e (hP e he)⟩

theorem Logs.of_start {x : Action σ α} (h : x.Logs P) {w w' : World σ} {a : Except Failure α}
    (hx : start x w = (a, w')) : w.Logs P w' := by
  have := h w
  rw [hx] at this
  exact this

theorem logs_pure (a : α) : (pure a : Action σ α).Logs P := fun _ => World.logs_of_eq rfl

theorem logs_throw (failure : Failure) : (throw failure : Action σ α).Logs P :=
  fun _ => World.logs_of_eq rfl

theorem logs_refuse (error : PluginError) : (refuse error : Action σ α).Logs P := logs_throw _

/-- Nothing that would come after a failure is done. -/
theorem logs_throw_bind (failure : Failure) (next : α → Action σ β) :
    (throw failure >>= next : Action σ β).Logs P := fun _ => World.logs_of_eq rfl

theorem logs_get : (get : Action σ (World σ)).Logs P := fun _ => World.logs_of_eq rfl

theorem logs_isReadOnly : (isReadOnly : Action σ Bool).Logs P := fun _ => World.logs_of_eq rfl

theorem logs_modify {f : World σ → World σ} (h : ∀ w, (f w).log = w.log) :
    (modify f : Action σ PUnit).Logs P := fun w => World.logs_of_eq (h w)

theorem logs_note {topic : Log.Topic} {message : String} (h : P ⟨topic, message⟩) :
    (note topic message : Action σ Unit).Logs P :=
  fun _ => ⟨[⟨topic, message⟩], rfl, fun _ he => List.mem_singleton.mp he ▸ h⟩

theorem logs_ofExcept {ε : Type} (failure : ε → Failure) (x : Except ε α) :
    (ofExcept failure x : Action σ α).Logs P := by
  cases x with
  | ok a => exact logs_pure a
  | error e => exact logs_throw _

theorem Logs.bind {x : Action σ α} {f : α → Action σ β} (hx : x.Logs P)
    (hf : ∀ a, (f a).Logs P) : (x >>= f).Logs P :=
  bind_of_trans (R := World.Logs P) .trans hx hf

theorem Logs.map {x : Action σ α} (h : x.Logs P) (f : α → β) : (f <$> x).Logs P := by
  rw [map_eq_pure_bind]
  exact h.bind fun a => logs_pure (f a)

theorem logs_mapM {f : α → Action σ β} (h : ∀ a, (f a).Logs P) (items : List α) :
    (items.mapM f).Logs P := by
  induction items with
  | nil => exact logs_pure _
  | cons a rest ih =>
      rw [List.mapM_cons]
      exact (h a).bind fun b => ih.bind fun bs => logs_pure _

/-- A loop that goes through all items adds what its rounds add. -/
theorem logs_forIn {f : α → Action σ β} (h : ∀ a, (f a).Logs P) (items : List α) :
    (forIn items PUnit.unit fun a _ => do
      let _ ← f a
      pure (ForInStep.yield PUnit.unit) : Action σ PUnit).Logs P := by
  induction items with
  | nil => exact logs_pure _
  | cons a rest ih =>
      have hround : (do
          let _ ← f a
          pure (ForInStep.yield PUnit.unit) : Action σ (ForInStep PUnit)).Logs P :=
        (h a).bind fun _ => logs_pure _
      rw [List.forIn_cons]
      refine hround.bind fun step => ?_
      cases step with
      | done _ => exact logs_pure _
      | yield _ => exact ih

/-- Putting the table back leaves the log alone. -/
theorem Logs.session {x : Action σ α} (h : x.Logs P) : (session x).Logs P := by
  intro w
  have hx := h w
  rw [start_session]
  generalize start x w = answer at hx ⊢
  rcases answer with ⟨failure | a, w₁⟩
  · exact hx
  · exact hx

end Action

/-! ## The catalog -/

namespace Catalog

open PluginRegistry.Action

variable {σ α : Type}

/-- The entry was made by a query. -/
def OfQuery (e : Log.Entry) : Prop := e.source = .query

theorem logs_measure (timing : Timing) (query : Query) :
    (measure timing query : Action σ Unit).Logs OfQuery := by
  have hentry : OfQuery (query.entry timing.threshold timing.duration) := by
    unfold Query.entry
    split
    · rfl
    · rfl
  unfold measure
  dsimp only
  split
  · exact fun _ => ⟨[_], rfl, fun _ he => List.mem_singleton.mp he ▸ hentry⟩
  · exact logs_pure _

theorem logs_fail {topic : Log.Topic} (htopic : topic.source = .query) (what : String)
    (fault : CatalogFault) : (fail topic what fault : Action σ α).Logs OfQuery :=
  (logs_note htopic).bind fun _ => logs_throw _

/-- Nothing that would come after a failure is done. -/
theorem logs_fail_bind {β : Type} {topic : Log.Topic} (htopic : topic.source = .query)
    (what : String) (fault : CatalogFault) (next : α → Action σ β) :
    (fail topic what fault >>= next).Logs OfQuery :=
  fun _ => ⟨[_], rfl, fun _ he => List.mem_singleton.mp he ▸ htopic⟩

theorem logs_table {topic : Log.Topic} (htopic : topic.source = .query) (what : String) :
    (table topic what : Action σ Table).Logs OfQuery := by
  refine logs_get.bind fun w => ?_
  split
  · exact logs_pure _
  · exact logs_fail htopic _ _

theorem logs_get (timing : Timing) (id : String) :
    (get timing id : Action σ (Option Row)).Logs OfQuery := by
  refine (logs_table rfl _).bind fun t => ?_
  dsimp only
  split
  · exact logs_fail_bind rfl _ _ _
  · exact (logs_measure _ _).bind fun _ => logs_pure _

theorem logs_findMany (timing : Timing) (filters : Filters) :
    (findMany timing filters : Action σ (List Row)).Logs OfQuery := by
  unfold findMany
  dsimp only
  split
  · exact logs_fail rfl _ _
  · split
    · exact logs_fail_bind rfl _ _ _
    · refine (logs_table rfl _).bind fun t => ?_
      split
      · exact logs_fail_bind rfl _ _ _
      · exact (logs_measure _ _).bind fun _ => logs_pure _

theorem logs_replace (t : Table) : (replace t : Action σ Unit).Logs OfQuery :=
  logs_modify fun _ => rfl

theorem logs_add (timing : Timing) (row : Row) : (add timing row : Action σ Unit).Logs OfQuery := by
  unfold add
  refine (logs_table rfl _).bind fun t => ?_
  dsimp only
  split
  · exact logs_fail_bind rfl _ _ _
  · refine logs_isReadOnly.bind fun readOnly => ?_
    split
    · exact logs_fail_bind rfl _ _ _
    · split
      · exact (logs_replace _).bind fun _ => logs_measure _ _
      · exact logs_fail rfl _ _

theorem logs_remove (timing : Timing) (row : Option Row) :
    (remove timing row : Action σ Unit).Logs OfQuery := by
  unfold remove
  dsimp only
  split
  · refine (logs_table rfl _).bind fun t => logs_isReadOnly.bind fun readOnly => ?_
    split
    · exact logs_fail_bind rfl _ _ _
    · exact (logs_replace _).bind fun _ => logs_measure _ _
  · exact logs_fail rfl _ _

theorem logs_all (timing : Timing) : (all timing : Action σ (List Plugin)).Logs OfQuery :=
  ((logs_findMany _ _).bind fun rows => logs_mapM (fun _ => logs_ofExcept _ _) rows).session

theorem logs_byService (timing : Timing) (service : Json) :
    (byService timing service : Action σ (List Plugin)).Logs OfQuery :=
  ((logs_findMany _ _).bind fun rows => logs_mapM (fun _ => logs_ofExcept _ _) rows).session

theorem logs_byId? (timing : Timing) (id : String) :
    (byId? timing id : Action σ (Option Plugin)).Logs OfQuery := by
  refine ((logs_get _ _).bind fun row => ?_).session
  cases row with
  | none => exact logs_pure _
  | some row => exact (logs_ofExcept _ _).bind fun _ => logs_pure _

theorem logs_byId (timing : Timing) (id : String) :
    (byId timing id : Action σ Plugin).Logs OfQuery := by
  refine (logs_byId? _ _).bind fun found => ?_
  cases found with
  | none => exact logs_refuse _
  | some p => exact logs_pure _

theorem logs_requireOwnId (id : String) (plugin : Plugin) :
    (requireOwnId id plugin : Action σ Unit).Logs OfQuery := by
  unfold requireOwnId
  split
  · exact logs_pure _
  · exact logs_refuse _

theorem logs_insert (timing : Timing) (now : CivilTime) (id : String) (plugin : Plugin) :
    (insert timing now id plugin : Action σ Plugin).Logs OfQuery := by
  refine (logs_requireOwnId _ _).bind fun _ => Logs.session ((logs_get _ _).bind fun found => ?_)
  dsimp only
  split
  · exact logs_throw_bind _ _
  · exact (logs_ofExcept _ _).bind fun _ => (logs_add _ _).bind fun _ => logs_ofExcept _ _

theorem logs_update (timing : Timing) (now : CivilTime) (id : String) (plugin : Plugin) :
    (update timing now id plugin : Action σ Plugin).Logs OfQuery := by
  refine (logs_requireOwnId _ _).bind fun _ => Logs.session ((logs_get _ _).bind fun found => ?_)
  dsimp only
  split
  · exact logs_refuse _
  · refine (logs_ofExcept _ _).bind fun body => ?_
    split
    · exact logs_throw_bind _ _
    · refine logs_isReadOnly.bind fun readOnly => ?_
      split
      · exact logs_throw_bind _ _
      · refine Logs.bind (logs_modify ?_) fun _ => logs_pure _
        exact fun _ => rfl

theorem logs_delete (timing : Timing) (id : String) :
    (delete timing id : Action σ Unit).Logs OfQuery := by
  refine Logs.session ((logs_get _ _).bind fun found => ?_)
  cases found with
  | none => exact logs_pure _
  | some row => exact logs_remove _ _

end Catalog

namespace Registry

open PluginRegistry.Action

variable {σ : Type}

theorem logs_actor {P : Log.Entry → Prop} (r : Registry σ) (user : Option String) :
    (r.actor user).Logs P := by
  unfold actor
  split
  · exact logs_pure _
  · exact logs_pure _
  · refine logs_get.bind fun w => Logs.bind (logs_modify ?_) fun _ => logs_pure _
    exact fun _ => rfl

theorem logs_requireCopy {P : Log.Entry → Prop} (canCopy : Bool) :
    (requireCopy canCopy : Action σ Unit).Logs P := by
  unfold requireCopy
  split
  · exact logs_pure _
  · exact logs_throw _

/-! ## The removal of artifacts -/

/-- The entry about an artifact that was not removed. -/
def leftEntry (plugin : String) (version : Json) (key : Option String) (fault : StoreFault) :
    Log.Entry where
  topic := .artifactLeft
  message := "Failed to delete binary for " ++ Log.releaseName (.str plugin) version ++ " (key=" ++
    Log.sanitize Log.usualLimit (.ofText? key) ++ "), artifact left orphaned: " ++ fault.message

/-- **One attempt to remove the artifact of a version**: the artifacts that are left, and the
entries about it. The store is asked for a key, and if it gives one, to delete what is under it. -/
def cleanup (r : Registry σ) (plugin : String) (version : Json) (artifacts : σ) :
    σ × List Log.Entry :=
  match r.store with
  | none => (artifacts, [])
  | some store =>
    match store.getKey plugin version.display with
    | .error fault => (artifacts, [leftEntry plugin version none fault])
    | .ok key =>
      match store.delete key artifacts with
      | (.ok (), left, entries) => (left, entries)
      | (.error fault, left, entries) =>
        (left, entries ++ [leftEntry plugin version (some key) fault])

theorem cleanup_fst (r : Registry σ) (plugin : String) (version : Json) (artifacts : σ) :
    (r.cleanup plugin version artifacts).1 = r.artifactsWithout plugin version artifacts := by
  unfold cleanup artifactsWithout
  cases r.store with
  | none => rfl
  | some store =>
      obtain ⟨getKey, _, _, delete, _⟩ := store
      dsimp only
      cases getKey plugin version.display with
      | error fault => rfl
      | ok key =>
          dsimp only
          rcases delete key artifacts with ⟨fault | _, left, entries⟩
          · rfl
          · rfl

/-- The attempts for some versions, one after the other. -/
def cleanups (r : Registry σ) (plugin : String) : List String → σ → σ × List Log.Entry
  | [], artifacts => (artifacts, [])
  | version :: rest, artifacts =>
    let first := r.cleanup plugin (.str version) artifacts
    let others := r.cleanups plugin rest first.1
    (others.1, first.2 ++ others.2)

/-- Removing an artifact is one attempt. -/
theorem deleteArtifact_eq_cleanup (r : Registry σ) (plugin : String) (version : Json)
    (w : World σ) :
    (r.deleteArtifact plugin version).start w =
      (.ok (), { w with
        artifacts := (r.cleanup plugin version w.artifacts).1
        log := w.log ++ (r.cleanup plugin version w.artifacts).2 }) := by
  unfold deleteArtifact cleanup
  cases r.store with
  | none =>
      dsimp only
      rw [List.append_nil]
      rfl
  | some store =>
      obtain ⟨getKey, _, _, delete, _⟩ := store
      dsimp only
      cases getKey plugin version.display with
      | error fault => rfl
      | ok key =>
          dsimp only
          rw [start_bind, start_get]
          dsimp only
          rw [start_bind, start_modify]
          rcases delete key w.artifacts with ⟨fault | _, left, entries⟩
          · dsimp only
            rw [← List.append_assoc]
            rfl
          · rfl

end Registry

/-- A choice of entries that leaves out those of queries, and those that tell of the removal of
records and releases. -/
structure Log.Selection (pick : Log.Entry → Bool) : Prop where
  /-- No entry of a query is picked. -/
  query : ∀ e, Catalog.OfQuery e → pick e = false
  /-- No entry about a release that was removed is picked. -/
  release : ∀ action user plugin version,
    pick ⟨.releaseDeleted, Audit.line ⟨action, user, plugin, version, .bool true⟩⟩ = false
  /-- No entry about a record that was removed is picked. -/
  plugin : ∀ action user plugin version,
    pick ⟨.pluginDeleted, Audit.line ⟨action, user, plugin, version, .bool true⟩⟩ = false

namespace Registry

open PluginRegistry.Action

variable {σ : Type} {pick : Log.Entry → Bool}

/-- Of what is picked, removing a release adds what is about its artifact. -/
theorem dropReleases_picked (hpick : Log.Selection pick) {r : Registry σ} {now : CivilTime}
    {id : String} {version : Json} {change : Plugin → Plugin} {user : Option String}
    {w w' : World σ} {answer : Plugin}
    (h : (r.dropReleases now id version change user).start w = (.ok answer, w')) :
    w'.artifacts = (r.cleanup id version w.artifacts).1 ∧
      w'.log.filter pick =
        w.log.filter pick ++ (r.cleanup id version w.artifacts).2.filter pick := by
  unfold dropReleases at h
  rw [start_bind_eq_ok] at h
  obtain ⟨current, w₁, hfind, h⟩ := h
  dsimp only at h
  rw [start_bind_eq_ok] at h
  obtain ⟨written, w₂, hupdate, h⟩ := h
  rw [start_bind_eq_ok] at h
  obtain ⟨actor, w₃, hactor, h⟩ := h
  rw [start_bind_eq_ok] at h
  obtain ⟨_, w₄, haudit, h⟩ := h
  rw [start_bind, deleteArtifact_eq_cleanup] at h
  cases h
  -- up to the artifact nothing is logged but queries and the audit
  have hartifacts : w₄.artifacts = w.artifacts := by
    cases haudit
    exact ((keeps_actor r user).of_start hactor).artifacts.trans
      (((Catalog.update_calm_and_atomic _ _ _ _).1.of_start hupdate).artifacts.trans
        ((Catalog.keeps_byId _ _).of_start hfind).artifacts)
  have hlog : w.Logs (fun e => pick e = false) w₄ :=
    ((((Catalog.logs_byId _ _).mono hpick.query).of_start hfind).trans
      (((Catalog.logs_update _ _ _ _).mono hpick.query).of_start hupdate)).trans
        (((logs_actor r user).of_start hactor).trans
          ((logs_note (hpick.release _ _ _ _)).of_start haudit))
  rw [List.filter_append, hlog.filter_eq, hartifacts]
  exact ⟨rfl, rfl⟩

/-- If it fails, it adds nothing that is picked. -/
theorem dropReleases_picked_of_error (hpick : Log.Selection pick) {r : Registry σ}
    {now : CivilTime} {id : String} {version : Json} {change : Plugin → Plugin}
    {user : Option String} {w w' : World σ} {failure : Failure}
    (h : (r.dropReleases now id version change user).start w = (.error failure, w')) :
    w'.log.filter pick = w.log.filter pick := by
  refine World.Logs.filter_eq ?_
  unfold dropReleases at h
  rcases start_bind_eq_error.mp h with hfind | ⟨current, w₁, hfind, h⟩
  · exact ((Catalog.logs_byId _ _).mono hpick.query).of_start hfind
  · have hlog := ((Catalog.logs_byId _ _).mono hpick.query).of_start hfind
    rcases start_bind_eq_error.mp h with hupdate | ⟨written, w₂, _, h⟩
    · exact hlog.trans (((Catalog.logs_update _ _ _ _).mono hpick.query).of_start hupdate)
    · -- what comes after the update does not fail
      obtain ⟨_, _, hok⟩ := ((total_actor r user).bind fun actor =>
        (total_audit .releaseDeleted "delete_release" actor id version).bind fun _ =>
          (total_deleteArtifact r id version).bind fun _ => total_pure written) w₂
      cases h.symm.trans hok

/-- Removing releases one after the other is one attempt for each of them, in order. -/
theorem deleteReleases_picked (hpick : Log.Selection pick) {r : Registry σ} {now : CivilTime}
    {id : String} {user : Option String} (releases : List Release) {w w' : World σ}
    (h : (forIn releases PUnit.unit fun release _ => do
        let _ ← r.deleteRelease now id release.version user
        pure (ForInStep.yield PUnit.unit) : Action σ PUnit).start w = (.ok ⟨⟩, w')) :
    w'.artifacts = (r.cleanups id (releases.map Release.version) w.artifacts).1 ∧
      w'.log.filter pick = w.log.filter pick ++
        (r.cleanups id (releases.map Release.version) w.artifacts).2.filter pick := by
  induction releases generalizing w with
  | nil =>
      cases h
      exact ⟨rfl, (List.append_nil _).symm⟩
  | cons release rest ih =>
      rw [List.forIn_cons, start_bind_eq_ok] at h
      obtain ⟨step, w₁, hfirst, h⟩ := h
      rw [start_bind_eq_ok] at hfirst
      obtain ⟨answer, w₂, hdelete, hyield⟩ := hfirst
      cases hyield
      obtain ⟨hartifacts, hlog⟩ := dropReleases_picked hpick hdelete
      obtain ⟨hartifacts', hlog'⟩ := ih h
      rw [hartifacts] at hartifacts' hlog'
      refine ⟨hartifacts', ?_⟩
      rw [hlog', hlog, List.append_assoc, ← List.filter_append]
      rfl

/-- **Removing a record is one attempt for each of its releases, in order.** -/
theorem delete_picked (hpick : Log.Selection pick) {r : Registry σ} {now : CivilTime} {id : String}
    {user : Option String} {w w' : World σ} (hs : w.Sound) {p : Plugin}
    (hp : w.plugin? id = some p) (h : (r.delete now id user).start w = (.ok (), w')) :
    w'.artifacts = (r.cleanups id p.versions w.artifacts).1 ∧
      w'.log.filter pick =
        w.log.filter pick ++ (r.cleanups id p.versions w.artifacts).2.filter pick := by
  unfold delete at h
  rw [start_bind_eq_ok] at h
  obtain ⟨found, w₁, hfound, h⟩ := h
  obtain ⟨row, stored, hrow, hstored, rfl⟩ := hs.row_of_plugin? hp
  rcases byId?_eq_ok hs hfound with ⟨_, hnone⟩ | ⟨row', stored', hrow', hstored', rfl⟩
  · cases hrow.symm.trans hnone
  · cases hrow.symm.trans hrow'
    cases hstored.unique hstored'
    dsimp only at h
    rw [start_bind_eq_ok] at h
    obtain ⟨_, w₂, hloop, h⟩ := h
    rw [start_bind_eq_ok] at h
    obtain ⟨_, w₃, hdelete, h⟩ := h
    rw [start_bind_eq_ok] at h
    obtain ⟨actor, w₄, hactor, haudit⟩ := h
    have hk := (Catalog.keeps_byId? _ _).of_start hfound
    have hbefore : w.Logs (fun e => pick e = false) w₁ :=
      ((Catalog.logs_byId? _ _).mono hpick.query).of_start hfound
    have hafter : w₂.Logs (fun e => pick e = false) w' :=
      (((Catalog.logs_delete _ _).mono hpick.query).of_start hdelete).trans
        (((logs_actor r user).of_start hactor).trans
          ((logs_note (hpick.plugin _ _ _ _)).of_start haudit))
    obtain ⟨hartifacts, hlog⟩ := deleteReleases_picked hpick _ hloop
    rw [hk.artifacts] at hartifacts hlog
    refine ⟨?_, ?_⟩
    · cases haudit
      exact ((keeps_actor r user).of_start hactor).artifacts.trans
        (((Catalog.delete_calm_and_atomic _ _).1.of_start hdelete).artifacts.trans hartifacts)
    · rw [hafter.filter_eq, hlog, hbefore.filter_eq]
      rfl

/-- An id that is not there is passed over, or refused if it has no octets, whatever the store
is. -/
theorem delete_of_missing (r : Registry σ) (now : CivilTime) {id : String} (user : Option String)
    {w : World σ} (hs : w.Sound) (hp : w.plugin? id = none) :
    ∃ result w', w.Kept w' ∧ w.Logs Catalog.OfQuery w' ∧
      (textFault? id = none → result = .ok ()) ∧
      (∀ fault, textFault? id = some fault → result = .error (.catalog fault)) ∧
      ∀ store : Option (ArtifactStore σ),
        ({ r with store }.delete now id user).start w = (result, w') := by
  obtain ⟨t, ht⟩ := hs.table
  cases hid : textFault? id with
  | none =>
      have hfind : t.find? id = none := by
        rw [← World.row?_of_table ht]
        exact hs.row_of_plugin?_eq_none hp
      obtain ⟨w', hk, hbyId⟩ := Catalog.byId?_of_missing ht r.timing hid hfind
      refine ⟨.ok (), w', hk, (Catalog.logs_byId? _ _).of_start hbyId, fun _ => rfl, nofun,
        fun store => ?_⟩
      unfold delete
      rw [start_bind, hbyId]
      rfl
  | some fault =>
      obtain ⟨w', hk, hbyId⟩ := Catalog.byId?_of_fault ht r.timing hid
      refine ⟨.error (.catalog fault), w', hk, (Catalog.logs_byId? _ _).of_start hbyId, nofun,
        fun _ h => by rw [Option.some.inj h], fun store => ?_⟩
      unfold delete
      rw [start_bind, hbyId]

end Registry

end PluginRegistry
