import PluginRegistry.Proofs.AcceptedRecords
import PluginRegistry.Proofs.ArtifactFrame
import PluginRegistry.Proofs.LoggedEntries

/-!
# Removing a record with all its releases

Removing a record goes through its releases, and at each of them the store may fail as it likes. The
releases are those that were there at the beginning, while the stored record loses all of a version
at once, so a version that occurs twice is gone when its turn comes again. None of this matters: the
record goes, the others stay as they are, and there is one attempt to remove an artifact for each
release, in order.

The attempts are told twice. `Registry.cleanups` gives the artifacts and the entries of the log that
they leave, for any store. `ArtifactStore.recording` writes down each key that a store is asked to
delete, so that the keys can be counted.
-/

namespace PluginRegistry

/-- The store, which writes down the keys that it is asked to delete. -/
def ArtifactStore.recording {σ : Type} (store : ArtifactStore σ) :
    ArtifactStore (σ × List String) where
  getKey := store.getKey
  store key content state :=
    let (result, left, entries) := store.store key content state.1
    (result, (left, state.2), entries)
  load key state := store.load key state.1
  delete key state :=
    let (result, left, entries) := store.delete key state.1
    (result, (left, state.2 ++ [key]), entries)
  listKeys state := store.listKeys state.1

namespace Registry

open PluginRegistry.Action

variable {σ : Type}

/-! ## The records that are left -/

/-- Of an id that has no record, none is found. -/
theorem find_of_missing (r : Registry σ) {w : World σ} {t : Table} (ht : w.table = some t)
    {id : String} (hoctets : textFault? id = none) (hid : t.find? id = none) :
    ∃ w', w.Kept w' ∧ (r.find id).start w = (.error (.error (.noPlugin id)), w') := by
  obtain ⟨w', hk, hstart⟩ := Catalog.byId?_of_missing ht r.timing hoctets hid
  refine ⟨w', hk, ?_⟩
  unfold find Catalog.byId
  rw [start_bind, hstart]
  rfl

/-- An id without octets is not even looked for. -/
theorem find_of_fault (r : Registry σ) {w : World σ} {t : Table} (ht : w.table = some t)
    {id : String} {fault : CatalogFault} (hid : textFault? id = some fault) :
    ∃ w', w.Kept w' ∧ (r.find id).start w = (.error (.catalog fault), w') := by
  obtain ⟨w', hk, hstart⟩ := Catalog.byId?_of_fault ht r.timing hid
  refine ⟨w', hk, ?_⟩
  unfold find Catalog.byId
  rw [start_bind, hstart]

/-- A row is under the id of its record. -/
theorem id_of_ofRow {w : World σ} (hs : w.Sound) {t : Table} (ht : w.table = some t) {row : Row}
    (hrow : row ∈ t.rows) {p : Plugin} (hp : (Plugin.ofRow row).toOption = some p) :
    p.id = row.id := by
  obtain ⟨stored, hstored⟩ :=
    hs.rows row.id row (by rw [World.row?_of_table ht, Table.find?_of_mem hrow])
  rw [hstored.ofRow] at hp
  cases hp
  exact hstored.id

/-- Once a record was removed, the others are listed as before. -/
theorem findAll_of_removed (r : Registry σ) {w w' : World σ} (hs : w.Sound) (hs' : w'.Sound)
    {id : String} (hremoved : w.Removed id w') :
    ∃ plugins w₁ w₂, r.findAll.start w = (.ok plugins, w₁) ∧
      r.findAll.start w' = (.ok (plugins.filter (·.id ≠ id)), w₂) := by
  obtain ⟨t, ht⟩ := hs.table
  obtain ⟨t', ht'⟩ := hs'.table
  have herased : t' = t.erase id := by
    refine Table.eq_of_find? fun id' => ?_
    rw [Table.find?_erase, ← World.row?_of_table ht', ← World.row?_of_table ht]
    split
    · rename_i hid
      rw [hid]
      exact hremoved.after
    · rename_i hid
      exact hremoved.others id' hid
  obtain ⟨w₁, hbefore, _⟩ := r.findAll_of_table hs ht
  obtain ⟨w₂, hafter, _⟩ := r.findAll_of_table hs' ht'
  refine ⟨_, w₁, w₂, hbefore, ?_⟩
  rw [hafter, herased]
  -- to leave out a row is to leave out its record
  refine congrArg (fun plugins => (Except.ok plugins, w₂)) ?_
  rw [List.filter_filterMap]
  unfold Table.erase
  rw [List.filterMap_filter]
  refine List.filterMap_congr fun row hrow => ?_
  cases hp : (Plugin.ofRow row).toOption with
  | none =>
      split
      · rfl
      · rfl
  | some p => simp [id_of_ofRow hs ht hrow hp, Option.filter]

/-! ## Attempts -/

/-- A store is asked once to delete under the key of each release, as far as it gives one. -/
theorem recorded_cleanups {store : ArtifactStore σ} {r : Registry (σ × List String)}
    (hstore : r.store = some store.recording) (id : String) (versions : List String)
    (state : σ × List String) :
    (r.cleanups id versions state).1.2 =
      state.2 ++ versions.filterMap fun version => (store.getKey id version).toOption := by
  induction versions generalizing state with
  | nil => exact (List.append_nil _).symm
  | cons version rest ih =>
      have hfirst : (r.cleanup id (.str version) state).1.2 =
          state.2 ++ (store.getKey id version).toOption.toList := by
        rw [cleanup_fst]
        unfold artifactsWithout
        rw [hstore]
        dsimp only [ArtifactStore.recording, Json.display]
        cases store.getKey id version with
        | error fault => exact (List.append_nil _).symm
        | ok key => rfl
      unfold cleanups
      rw [ih, hfirst, List.append_assoc]
      cases hkey : store.getKey id version with
      | error fault => rw [List.filterMap_cons_none (by rw [hkey]; rfl)]; rfl
      | ok key => rw [List.filterMap_cons_some (by rw [hkey]; rfl)]; rfl

/-- The artifacts that the attempts leave in a directory. -/
theorem cleanups_inDirectory {r : Registry FileTree} {root : Path}
    (hstore : r.store = some (Artifacts.inDirectory root)) (id : String) (versions : List String)
    (t : FileTree) :
    (r.cleanups id versions t).1
      = Artifacts.withoutAll root (versions.map (Artifacts.key id)) t := by
  induction versions generalizing t with
  | nil => rfl
  | cons version rest ih =>
      unfold cleanups
      rw [ih, cleanup_fst, artifactsWithout_inDirectory hstore]
      rfl

/-! ## Removing a record -/

/-- What there is once a record was removed with all its releases. -/
structure Cascade (r : Registry σ) (id : String) (p : Plugin) (w w' : World σ) : Prop where
  /-- The record is not found any more. -/
  gone : ∃ w'', (r.find id).start w' = (.error (.error (.noPlugin id)), w'')
  /-- The others are listed as before. -/
  others : ∃ plugins w₁ w₂, r.findAll.start w = (.ok plugins, w₁) ∧
    r.findAll.start w' = (.ok (plugins.filter (·.id ≠ id)), w₂)
  /-- The artifacts are those that are left by one attempt for each release, in order. -/
  artifacts : w'.artifacts = (r.cleanups id p.versions w.artifacts).1
  /-- The entries of these attempts are all that was logged, but for queries and the audit. -/
  log : ∀ pick, Log.Selection pick → w'.log.filter pick =
    w.log.filter pick ++ (r.cleanups id p.versions w.artifacts).2.filter pick

/-- A record that is there is removed, and then there is all that `Cascade` tells. -/
theorem delete_cascades {r₀ : Registry σ} {w : World σ} (hw : r₀.Reached w) (r : Registry σ)
    (now : CivilTime) {id : String} (user : Option String) {p : Plugin}
    (hp : w.plugin? id = some p) :
    ∃ w', (r.delete now id user).start w = (.ok (), w') ∧ r.Cascade id p w w' := by
  have hs := hw.sound
  have hid := hs.textFault?_of_plugin hp
  obtain ⟨w', hstart, hremoved, hs', _⟩ := delete_start r now user hs hid
  obtain ⟨t', ht'⟩ := hs'.table
  obtain ⟨w'', _, hgone⟩ :=
    r.find_of_missing ht' hid (World.row?_of_table ht' id ▸ hremoved.after)
  refine ⟨w', hstart, ⟨w'', hgone⟩, r.findAll_of_removed hs hs' hremoved, ?_, fun pick hpick => ?_⟩
  · -- the artifacts are the same whatever is picked from the log
    have hnothing : Log.Selection fun _ => false :=
      ⟨fun _ _ => rfl, fun _ _ _ _ => rfl, fun _ _ _ _ => rfl⟩
    exact (delete_picked hnothing hs hp hstart).1
  · exact (delete_picked hpick hs hp hstart).2

/-- **Removing a record completes, whatever the store does.** The state may have been reached with
other validators and another store. A record that is there goes with one attempt for each of its
releases. An id that is not there is passed over, which no store has a part in; if it has no octets
it is refused, with nothing done. Of the keys that a store gives for the releases, each is one that
it is asked to delete under, in order. With a store in a directory, nothing is loaded for any of the
releases. -/
theorem delete_completes (now : CivilTime) (id : String) (user : Option String) :
    (∀ {σ : Type} (r₀ r : Registry σ) {w : World σ}, r₀.Reached w →
      (∀ p, w.plugin? id = some p → ∃ w', (r.delete now id user).start w = (.ok (), w') ∧
        r.Cascade id p w w') ∧
      (w.plugin? id = none → ∃ result w', w.Kept w' ∧ w.Logs Catalog.OfQuery w' ∧
        (textFault? id = none → result = .ok ()) ∧
        (∀ fault, textFault? id = some fault → result = .error (.catalog fault)) ∧
        ∀ store : Option (ArtifactStore σ),
          ({ r with store }.delete now id user).start w = (result, w'))) ∧
    (∀ {σ : Type} (store : ArtifactStore σ) (r₀ r : Registry (σ × List String)) {w w'},
      r.store = some store.recording → r₀.Reached w → ∀ p, w.plugin? id = some p →
        (r.delete now id user).start w = (.ok (), w') → w'.artifacts.2 =
          w.artifacts.2 ++ p.versions.filterMap fun version => (store.getKey id version).toOption) ∧
    ∀ (root : Path) (r₀ r : Registry FileTree) {w w'},
      r.store = some (Artifacts.inDirectory root) → r₀.Reached w → ∀ p, w.plugin? id = some p →
        (r.delete now id user).start w = (.ok (), w') → ∀ version ∈ p.versions, ∀ content,
          w'.loaded root id version ≠ .ok content := by
  refine ⟨fun r₀ r w hw => ⟨fun p hp => delete_cascades hw r now user hp,
    r.delete_of_missing now user hw.sound⟩, ?_, ?_⟩
  · intro σ store r₀ r w w' hstore hw p hp hstart
    obtain ⟨w₁, hstart', hcascade⟩ := delete_cascades hw r now user hp
    cases hstart.symm.trans hstart'
    rw [hcascade.artifacts]
    exact recorded_cleanups hstore id p.versions w.artifacts
  · intro root r₀ r w w' hstore hw p hp hstart version hversion content
    obtain ⟨w₁, hstart', hcascade⟩ := delete_cascades hw r now user hp
    cases hstart.symm.trans hstart'
    unfold World.loaded
    rw [hcascade.artifacts, cleanups_inDirectory hstore]
    exact Artifacts.load_withoutAll_of_mem (List.mem_map_of_mem hversion) content

/-- A store that has no key for one version, and deletes nothing. -/
def stubborn : ArtifactStore Unit where
  getKey plugin version :=
    if version = "2.0.0" then .error (.name .nullCharacter) else .ok (plugin ++ "/" ++ version)
  store _ _ state := (.ok (), state, [])
  load _ _ := .error (.other "busy")
  delete _ state := (.error (.other "busy"), state, [])
  listKeys _ := []

/-- A registry with this store, which asks for nothing. -/
def stuck : Registry (Unit × List String) :=
  { plain (some stubborn.recording) with validators := [] }

/-- What it holds once a plugin was made, with a version that occurs twice. -/
def twice : World (Unit × List String) :=
  stuck.run [⟨default, .upsert (.bare "acme.a"
    [.bare "1.0.0" false, .bare "2.0.0" false, .bare "1.0.0" false])⟩] (.blank ((), []))

/-- The plugin goes with three attempts, though each of them fails. In a directory the file that its
release leads to goes with it. -/
theorem delete_completes_stuck :
    (∃ w' w'', (stuck.delete default "acme.a" none).start twice = (.ok (), w') ∧
      (stuck.find "acme.a").start w' = (.error (.error (.noPlugin "acme.a")), w'') ∧
      w'.artifacts.2 = ["acme.a/1.0.0", "acme.a/1.0.0"]) ∧
    (∃ w', twice.Kept w' ∧ (stuck.delete default "acme.b" none).start twice = (.ok (), w')) ∧
    ∃ w', (guarded.delete default "acme.a" none).start neighbours = (.ok (), w') ∧
      ∀ content, w'.loaded ["r"] "acme.a" "../acme.b/1.0.0" ≠ .ok content := by
  have hreached : stuck.Reached twice := by
    refine Reached.run (.empty ⟨rfl, rfl⟩) ?_
    decide
  have hneighbours : guarded.Reached neighbours := by
    refine .stored _ (Reached.run (.empty ⟨rfl, rfl⟩) ?_)
    decide
  obtain ⟨hdone, hrecorded, hdirectory⟩ := delete_completes default "acme.a" none
  refine ⟨?_, ?_, ?_⟩
  · have hseen : (twice.plugin? "acme.a").map Plugin.versions
        = some ["1.0.0", "2.0.0", "1.0.0"] := by
      decide +kernel
    obtain ⟨p, hp, hversions⟩ := Option.map_eq_some_iff.mp hseen
    obtain ⟨w', hstart, hcascade⟩ := (hdone stuck stuck hreached).1 p hp
    obtain ⟨w'', hgone⟩ := hcascade.gone
    have hkeys := hrecorded stubborn stuck stuck rfl hreached p hp hstart
    rw [hversions, show twice.artifacts.2 = [] by decide +kernel] at hkeys
    exact ⟨w', w'', hstart, hgone, hkeys⟩
  · have hnone : twice.plugin? "acme.b" = none :=
      Option.map_eq_none_iff.mp (show (twice.plugin? "acme.b").map Plugin.id = none by
        decide +kernel)
    obtain ⟨result, w', hk, _, hpassed, _, hstart⟩ :=
      ((delete_completes default "acme.b" none).1 stuck stuck hreached).2 hnone
    exact ⟨w', hk, hpassed (by decide) ▸ hstart stuck.store⟩
  · have hseen : (neighbours.plugin? "acme.a").map Plugin.versions
        = some ["../acme.b/1.0.0"] := by
      decide +kernel
    obtain ⟨p, hp, hversions⟩ := Option.map_eq_some_iff.mp hseen
    obtain ⟨w', hstart, _⟩ := (hdone guarded guarded hneighbours).1 p hp
    refine ⟨w', hstart, ?_⟩
    exact hdirectory ["r"] guarded guarded rfl hneighbours p hp hstart _ (by simp [hversions])

end Registry

end PluginRegistry
