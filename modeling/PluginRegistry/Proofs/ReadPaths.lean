import PluginRegistry.Proofs.CascadingDelete
import PluginRegistry.Proofs.Lifetimes

/-!
# The ways to read agree

Records are listed, found by their ids, and listed by the services that they are tagged with. The id
and the tag of a record are kept twice, in the row and in the body. Rows are found by what the row
says, and a record shows what the body says, so the ways to read agree because every write leaves the
two the same. The order of ids is the order of the rows.
-/

namespace PluginRegistry

/-! ## Rows that are found by a tag -/

namespace Catalog

open PluginRegistry.Action

variable {σ : Type}

theorem columns_tag (tag : String) :
    Filters.columns [("service", .str tag)] = .ok [(.service, .str tag)] := rfl

/-- A tag is at fault as a text is. -/
theorem passFault?_tag (tag : String) :
    Filters.passFault? [(Column.service, .str tag)] = textFault? tag := by
  unfold Filters.passFault?
  simp [Column.isPassed, Filters.parameterFault?]

theorem holds_tag (row : Row) (tag : String) :
    Column.service.holds row (.str tag) = decide (row.service = some tag) := by
  unfold Column.holds
  cases row.service with
  | none => rfl
  | some kept => simp [Json.toOption, Column.isText, eq_comm]

/-- The rows with a tag are found, in order. -/
theorem findMany_of_tag {w : World σ} {t : Table} (ht : w.table = some t) (timing : Timing)
    {tag : String} (htag : textFault? tag = none) :
    ∃ w', w.Kept w' ∧ (findMany timing [("service", .str tag)]).start w
      = (.ok (t.rows.filter (·.service = some tag)), w') := by
  have hrows : (t.rows.filter fun row =>
      [(Column.service, Json.str tag)].all fun filter => filter.1.holds row filter.2)
        = t.rows.filter (·.service = some tag) := by
    refine List.filter_congr fun row _ => ?_
    rw [List.all_cons, List.all_nil, Bool.and_true, holds_tag]
  obtain ⟨w', hk, hm⟩ := measure_start timing ⟨.str "find_many", .obj [("service", .str tag)],
    .int (t.rows.filter (·.service = some tag)).length⟩ w
  refine ⟨w', hk, ?_⟩
  unfold findMany
  rw [columns_tag]
  show start (table _ _ >>= _) w = _
  rw [start_bind, start_table ht]
  dsimp only
  rw [passFault?_tag, htag, hrows]
  show start (measure _ _ >>= _) w = _
  rw [start_bind, hm]
  rfl

/-- A tag without octets is none to find rows by. -/
theorem findMany_of_textFault {w : World σ} {t : Table} (ht : w.table = some t) (timing : Timing)
    {tag : String} {fault : CatalogFault} (htag : textFault? tag = some fault) :
    ∃ w', w.Kept w' ∧ (findMany timing [("service", .str tag)]).start w
      = (.error (.catalog fault), w') := by
  refine ⟨((findMany timing [("service", .str tag)]).start w).2, keeps_findMany timing _ w, ?_⟩
  refine Prod.ext ?_ rfl
  unfold findMany
  rw [columns_tag]
  show (start (table _ _ >>= _) w).1 = _
  rw [start_bind, start_table ht]
  dsimp only
  rw [passFault?_tag, htag]
  rfl

end Catalog

/-! ## What rows and records have in common -/

/-- The tag of a row is the tag of the record that it keeps. -/
theorem Deed.traces_tag : Deed.Traces fun _ row p => p.service = row.service where
  made _ htag _ _ := htag.symm
  revised _ _ _ _ _ htag _ _ := (Plugin.service_overwrittenBy _ _).trans htag.symm

namespace Registry

open PluginRegistry.Action

variable {σ : Type}

/-- In a state that is reached a row has the tag of its record. -/
theorem Reached.service_of_ofRow {r : Registry σ} {w : World σ} (hw : r.Reached w) {t : Table}
    (ht : w.table = some t) {row : Row} (hrow : row ∈ t.rows) {p : Plugin}
    (hp : (Plugin.ofRow row).toOption = some p) : p.service = row.service := by
  have hfound : w.row? row.id = some row := by
    rw [World.row?_of_table ht, Table.find?_of_mem hrow]
  obtain ⟨held, hheld⟩ := hw.sound.rows row.id row hfound
  rw [hheld.ofRow] at hp
  cases hp
  obtain ⟨_, ht⟩ := hw.traced Deed.traces_tag row.id
  exact ht.present row held hfound hheld

/-- To choose rows by their tag is to choose records by theirs. -/
theorem Reached.filterMap_tag {r : Registry σ} {w : World σ} (hw : r.Reached w) {t : Table}
    (ht : w.table = some t) (tag : Option String) :
    (t.rows.filter (·.service = tag)).filterMap (fun row => (Plugin.ofRow row).toOption) =
      (t.rows.filterMap fun row => (Plugin.ofRow row).toOption).filter (·.service = tag) := by
  rw [List.filter_filterMap, List.filterMap_filter]
  refine List.filterMap_congr fun row hrow => ?_
  cases hp : (Plugin.ofRow row).toOption with
  | none =>
      split
      · rfl
      · rfl
  | some p => simp [← hw.service_of_ofRow ht hrow hp, Option.filter]

/-! ## Reading -/

/-- What the ways to read give, told by a list of records. -/
structure ReadsAs (r : Registry σ) (w : World σ) (plugins : List Plugin) : Prop where
  /-- The list is that of all records. -/
  all : ∃ w', r.findAll.start w = (.ok plugins, w') ∧ w.Kept w'
  /-- It is in the order of the ids, none of which occurs twice. -/
  ordered : plugins.Pairwise fun p q => p.id < q.id
  /-- The ids are those of the rows. -/
  stored : ∀ id, (∃ row, w.row? id = some row) ↔ ∃ p ∈ plugins, p.id = id
  /-- Each record is found by its id. -/
  byId : ∀ p ∈ plugins, ∃ w', (r.find p.id).start w = (.ok p, w') ∧ w.Kept w'
  /-- By an id that is not listed no record is found. -/
  missing : ∀ id, textFault? id = none → (∀ p ∈ plugins, p.id ≠ id) →
    ∃ w', (r.find id).start w = (.error (.error (.noPlugin id)), w') ∧ w.Kept w'
  /-- An id with half a surrogate pair has no octets to look for. No record has it. -/
  unnamed : ∀ id fault, textFault? id = some fault →
    (∃ w', (r.find id).start w = (.error (.catalog fault), w') ∧ w.Kept w') ∧
      ∀ p ∈ plugins, p.id ≠ id
  /-- A tag that is blank is refused. -/
  blank : ∀ tag, Text.isAllBlank tag = true → (r.findByService (some tag)).start w =
    (.error (.error (.invalidRequest .blankService .null .null .null)), w)
  /-- By another tag the records are listed that have it, in the same order. -/
  tagged : ∀ tag, Text.isAllBlank tag = false → textFault? tag = none →
    ∃ w', (r.findByService (some tag)).start w =
      (.ok (plugins.filter (·.service = some tag)), w') ∧ w.Kept w'
  /-- A tag with half a surrogate pair has no octets to look for. No record has it. -/
  unsaid : ∀ tag fault, Text.isAllBlank tag = false → textFault? tag = some fault →
    (∃ w', (r.findByService (some tag)).start w = (.error (.catalog fault), w') ∧ w.Kept w') ∧
      ∀ p ∈ plugins, p.service ≠ some tag

theorem findByService_of_blank (r : Registry σ) {tag : String} (h : Text.isAllBlank tag = true)
    (w : World σ) : (r.findByService (some tag)).start w =
      (.error (.error (.invalidRequest .blankService .null .null .null)), w) := by
  unfold findByService
  rw [Option.filter_some_neg (by simp [h])]
  rfl

theorem findByService_of_not_blank (r : Registry σ) {tag : String}
    (h : Text.isAllBlank tag = false) :
    r.findByService (some tag) = Catalog.byService r.timing (.str tag) := by
  unfold findByService
  rw [Option.filter_some_pos (by simp [h])]

/-- The records with a tag are listed. -/
theorem findByService_of_tag {r₀ : Registry σ} (r : Registry σ) {w : World σ} (hw : r₀.Reached w)
    {t : Table} (ht : w.table = some t) {tag : String} (hblank : Text.isAllBlank tag = false)
    (htag : textFault? tag = none) :
    ∃ w', (r.findByService (some tag)).start w =
      (.ok ((t.rows.filterMap fun row => (Plugin.ofRow row).toOption).filter
        (·.service = some tag)), w') ∧ w.Kept w' := by
  obtain ⟨w', hk, hfound⟩ := Catalog.findMany_of_tag ht r.timing htag
  have hread : ∀ row ∈ t.rows.filter (·.service = some tag), ∃ p, Plugin.ofRow row = .ok p := by
    intro row hrow
    have hmem := (List.mem_filter.mp hrow).1
    obtain ⟨p, hp⟩ :=
      hw.sound.rows row.id row (by rw [World.row?_of_table ht, Table.find?_of_mem hmem])
    exact ⟨p.timed row, hp.ofRow⟩
  refine ⟨w', ?_, hk⟩
  rw [r.findByService_of_not_blank hblank, ← hw.filterMap_tag ht]
  unfold Catalog.byService
  rw [start_session_eq_ok, start_bind_eq_ok]
  exact ⟨_, w', hfound, Catalog.mapM_recordOf hread w'⟩

/-- A tag without octets cannot be looked for. -/
theorem findByService_of_textFault (r : Registry σ) {w : World σ} {t : Table}
    (ht : w.table = some t) {tag : String} (hblank : Text.isAllBlank tag = false)
    {fault : CatalogFault} (htag : textFault? tag = some fault) :
    ∃ w', (r.findByService (some tag)).start w = (.error (.catalog fault), w') ∧ w.Kept w' := by
  obtain ⟨w', _, hfound⟩ := Catalog.findMany_of_textFault ht r.timing htag
  rw [r.findByService_of_not_blank hblank]
  refine ⟨_, Prod.ext ?_ rfl, Catalog.keeps_byService r.timing _ w⟩
  unfold Catalog.byService
  rw [start_session, start_bind, hfound]

/-- A record that is found shows the row under its id. -/
theorem row_of_listed {w : World σ} (hs : w.Sound) {p : Plugin}
    (hp : ∃ id, w.plugin? id = some p) :
    ∃ row held, w.row? p.id = some row ∧ row.Holds held ∧ p = held.timed row := by
  obtain ⟨id, hid⟩ := hp
  obtain ⟨row, held, hrow, hheld, rfl⟩ := hs.row_of_plugin? hid
  refine ⟨row, held, ?_, hheld, rfl⟩
  rw [show (held.timed row).id = id from hheld.id.trans (World.id_of_row? hrow), hrow]

/-- Among all records there is one for each row. -/
theorem row_iff_listed {w : World σ} (hs : w.Sound) {plugins : List Plugin}
    (hmem : ∀ p, p ∈ plugins ↔ ∃ id, w.plugin? id = some p) (id : String) :
    (∃ row, w.row? id = some row) ↔ ∃ p ∈ plugins, p.id = id := by
  constructor
  · rintro ⟨row, hrow⟩
    obtain ⟨held, hheld⟩ := hs.rows id row hrow
    exact ⟨held.timed row, (hmem _).mpr ⟨id, World.plugin?_of_row hrow hheld⟩,
      hheld.id.trans (World.id_of_row? hrow)⟩
  · rintro ⟨p, hp, rfl⟩
    obtain ⟨row, _, hrow, _⟩ := row_of_listed hs ((hmem p).mp hp)
    exact ⟨row, hrow⟩

/-- Calls that make two records with a tag, and write the first of them again without it. -/
def retagging : List Call :=
  [⟨default, .upsert ⟨"acme.b", some "orca", none, none, [], none, none, []⟩⟩,
    ⟨default, .upsert ⟨"acme.a", some "orca", none, none, [], none, none, []⟩⟩,
    ⟨default, .upsert (.bare "acme.b" [])⟩]

/-- The state after them. -/
def retagged : World Unit := (plain none).run retagging (.blank ())

/-- By a tag that is half a surrogate pair nothing is listed, not even the empty list. -/
example : (((plain none).findByService (some (String.singleton (Text.ofHalf 0xD800)))).start
    retagged).1.isOk = false := by decide +kernel

end Registry

end PluginRegistry
