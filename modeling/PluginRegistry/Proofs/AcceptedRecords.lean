import PluginRegistry.Proofs.RecordInvariants
import PluginRegistry.Settings.Basic

/-!
# Stored records are accepted

The registry validates most of what it writes, but a release is removed and a preference is set
without asking the validators again. With the rules of the registry that is no loophole, whichever
of them are enforced: in every state that is reached the records can be listed, and the validators
accept each of them.
-/

namespace PluginRegistry

/-! ## Listing all records -/

namespace Catalog

open PluginRegistry.Action

variable {σ : Type}

/-- Without filters all rows are found. -/
theorem findMany_of_table {w : World σ} {t : Table} (ht : w.table = some t) (timing : Timing) :
    ∃ w', w.Kept w' ∧ (findMany timing []).start w = (.ok t.rows, w') := by
  obtain ⟨w', hk, hm⟩ :=
    measure_start timing ⟨.str "find_many", .obj [], .int t.rows.length⟩ w
  refine ⟨w', hk, ?_⟩
  unfold findMany
  -- no filter can be at fault, and none leaves out a row
  show start (table _ _ >>= _) w = _
  rw [start_bind, start_table ht]
  show start (measure timing ⟨_, _, .int (t.rows.filter fun _ => true).length⟩ >>= fun _ =>
    pure (t.rows.filter fun _ => true)) w = _
  rw [List.filter_true, start_bind, hm]
  rfl

/-- Rows that can be read are read one after the other. -/
theorem mapM_recordOf {rows : List Row} (h : ∀ row ∈ rows, ∃ p, Plugin.ofRow row = .ok p)
    (w : World σ) :
    (rows.mapM recordOf).start w
      = (.ok (rows.filterMap fun row => (Plugin.ofRow row).toOption), w) := by
  induction rows with
  | nil => rfl
  | cons row rest ih =>
      obtain ⟨⟨p, hp⟩, hrest⟩ := List.forall_mem_cons.mp h
      have hrecord : (recordOf row).start w = (.ok p, w) := by
        unfold recordOf
        rw [hp]
        rfl
      rw [List.mapM_cons, start_bind, hrecord]
      dsimp only
      rw [start_bind, ih hrest, List.filterMap_cons, hp]
      rfl

end Catalog

namespace Registry

open PluginRegistry.Action

variable {σ : Type}

/-- The rows are listed in order, and nothing changes. -/
theorem findAll_of_table (r : Registry σ) {w : World σ} (hs : w.Sound) {t : Table}
    (ht : w.table = some t) :
    ∃ w', r.findAll.start w =
        (.ok (t.rows.filterMap fun row => (Plugin.ofRow row).toOption), w') ∧ w.Kept w' := by
  obtain ⟨w', hk, hfound⟩ := Catalog.findMany_of_table ht r.timing
  have hread : ∀ row ∈ t.rows, ∃ p, Plugin.ofRow row = .ok p := by
    intro row hrow
    obtain ⟨p, hp⟩ := hs.rows row.id row (by rw [World.row?_of_table ht, Table.find?_of_mem hrow])
    exact ⟨p.timed row, hp.ofRow⟩
  refine ⟨w', ?_, hk⟩
  show (Catalog.all r.timing).start w = _
  unfold Catalog.all
  rw [start_session_eq_ok, start_bind_eq_ok]
  exact ⟨t.rows, w', hfound, Catalog.mapM_recordOf hread w'⟩

/-- All records are listed, and nothing changes. -/
theorem findAll_of_sound (r : Registry σ) {w : World σ} (hs : w.Sound) :
    ∃ plugins w', r.findAll.start w = (.ok plugins, w') ∧ w.Kept w' ∧
      ∀ p, p ∈ plugins ↔ ∃ id, w.plugin? id = some p := by
  obtain ⟨t, ht⟩ := hs.table
  obtain ⟨w', hall, hk⟩ := r.findAll_of_table hs ht
  refine ⟨_, w', hall, hk, fun p => ?_⟩
  -- the rows are those that are found under the ids
  rw [List.mem_filterMap]
  constructor
  · rintro ⟨row, hrow, hp⟩
    refine ⟨row.id, ?_⟩
    unfold World.plugin?
    rw [World.row?_of_table ht, Table.find?_of_mem hrow]
    exact hp
  · rintro ⟨id, hid⟩
    obtain ⟨row, hrow, hp⟩ := Option.bind_eq_some_iff.mp hid
    rw [World.row?_of_table ht] at hrow
    exact ⟨row, List.mem_of_find?_eq_some hrow, hp⟩

/-! ## Records that the validators accept -/

theorem validate_of_accepts {r : Registry σ} {p : Plugin} (h : r.Accepts p) (w : World σ) :
    (r.validate p).start w = (.ok (), w) := by
  unfold validate
  dsimp only
  rw [show (Validator.report r.validators p).violations = [] from h]
  rfl

/-- Hereditary rules accept what is within a record that they accept. -/
theorem Accepts.within {r : Registry σ} {p q : Plugin}
    (hr : ∀ rule ∈ r.validators, rule.IsHereditary) (hp : r.Accepts p) (hq : q.Within p) :
    r.Accepts q :=
  List.flatMap_eq_nil_iff.mpr fun rule hrule => hr rule hrule hq (hp.check hrule)

/-- Where all rules are hereditary, they accept every stored record. -/
theorem Reached.accepts {r : Registry σ} (hr : ∀ rule ∈ r.validators, rule.IsHereditary)
    {w : World σ} (hw : r.Reached w) : w.Every r.Accepts := by
  intro id row p hrow hp
  refine List.flatMap_eq_nil_iff.mpr fun rule hrule => ?_
  exact hw.every (maintains_check hrule (hr rule hrule)) id row p hrow hp

/-- Settings that leave ids alone. -/
def lenient : Settings where
  appName := "plugininfo"
  appVersion := "0.1.0"
  debug := false
  databaseUrl := "sqlite:///./plugininfo.db"
  databaseEcho := false
  binaryStoragePath := none
  anonymousUser := "anonymous"
  enforceCanonicalIds := false
  enforceRequiresFormat := true
  enforceUniqueVersions := true
  logLevel := "INFO"
  logFormat := "%(message)s"
  extras := []

/-- The registry of these settings, without artifacts. -/
def unguarded : Registry Unit := { plain none with validators := lenient.validators }

/-- A record with two releases, once the second one was preferred and the first one was removed. -/
def trimmedDown : World Unit :=
  unguarded.run
    [⟨default, .upsert (.bare "acme" [.bare "1.0.0" false,
      { Release.bare "2.0.0" false with requires := some "orca>=7.0.0" }])⟩,
      ⟨default, .preferRelease "acme" (.str "2.0.0") (.bool true) none⟩,
      ⟨default, .deleteRelease "acme" (.str "1.0.0") none⟩] (.blank ())

end Registry

end PluginRegistry
