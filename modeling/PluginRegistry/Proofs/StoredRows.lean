import PluginRegistry.Proofs.CatalogSpec
import PluginRegistry.Proofs.Likeness
import PluginRegistry.Proofs.RecordChanges

/-!
# Rows that keep records

A row keeps a record if its body is what the record is written as, and the record is what the body
is read as. `World.Sound` says that every row of the table keeps a record. It is what makes each
read of a stored record succeed, and with it each removal of its releases.

A record that is written over another one is not always stored as it was given: if the bodies are
alike the old one stays. `overwrittenBy` is the record that the row keeps then. It has the service,
the versions and the preferences of the new one in any case.
-/

namespace PluginRegistry

namespace Plugin

/-- The record as it is read from a row, with the times of the row. -/
def timed (row : Row) (p : Plugin) : Plugin :=
  { p with createTs := some (.utc row.createdAt), lastModified := some (.utc row.lastModified) }

/-- The record that is kept once a new one was written over the old one. -/
def overwrittenBy (old new : Plugin) : Plugin :=
  if new.body.alike old.body then old else new.restored

theorem service_overwrittenBy (old new : Plugin) :
    (old.overwrittenBy new).service = new.service := by
  unfold overwrittenBy
  split
  · rename_i h
    exact (service_of_alike h).symm
  · rfl

theorem marks_overwrittenBy {old new : Plugin} (hold : old.WellFormed) (hnew : new.WellFormed) :
    (old.overwrittenBy new).marks = new.marks := by
  unfold overwrittenBy
  split
  · rename_i h
    exact (marks_of_alike hnew hold h).symm
  · exact marks_restored new

theorem preferredVersions_eq_marks (p : Plugin) :
    p.preferredVersions = (p.marks.filter (·.2)).map (·.1) := by
  unfold preferredVersions marks
  rw [List.filter_map, List.map_map]
  rfl

theorem preferredVersions_restored (p : Plugin) :
    p.restored.preferredVersions = p.preferredVersions := by
  rw [preferredVersions_eq_marks, preferredVersions_eq_marks, marks_restored]

theorem versions_overwrittenBy {old new : Plugin} (hold : old.WellFormed) (hnew : new.WellFormed) :
    (old.overwrittenBy new).versions = new.versions := by
  rw [versions_eq_marks, versions_eq_marks, marks_overwrittenBy hold hnew]

theorem preferredVersions_overwrittenBy {old new : Plugin} (hold : old.WellFormed)
    (hnew : new.WellFormed) :
    (old.overwrittenBy new).preferredVersions = new.preferredVersions := by
  rw [preferredVersions_eq_marks, preferredVersions_eq_marks, marks_overwrittenBy hold hnew]

end Plugin

/-! ## Rows -/

/-- An id that was read has octets, so its row can be asked for. -/
theorem Plugin.WellFormed.textFault?_id {p : Plugin} (h : p.WellFormed) :
    textFault? p.id = none := by
  rw [textFault?, h.encoded]
  rfl

/-- The row keeps the record. -/
structure Row.Holds (row : Row) (p : Plugin) : Prop where
  /-- The record is as it was read. -/
  wellFormed : p.WellFormed
  /-- Nothing of it changes when it is written and read again. -/
  steady : p.restored = p
  /-- The body is what it is written as. -/
  body : p.writeBody = .ok row.body
  /-- It is kept under its id. -/
  id : p.id = row.id
  /-- Its tag can be kept. -/
  tag : Catalog.tagFault? p.service = none

namespace Row

theorem Holds.body_eq {row : Row} {p : Plugin} (h : row.Holds p) : p.body = row.body :=
  (Plugin.writeBody_eq_ok.mp h.body).2.2

theorem Holds.read {row : Row} {p : Plugin} (h : row.Holds p) :
    Plugin.read row.body.toDocument = .ok p := by
  rw [← h.body_eq, Plugin.read_body h.wellFormed, h.steady]

/-- The record of a row is found. -/
theorem Holds.ofRow {row : Row} {p : Plugin} (h : row.Holds p) :
    Plugin.ofRow row = .ok (p.timed row) := by
  unfold Plugin.ofRow
  rw [h.read]
  rfl

theorem Holds.timed {row : Row} {p : Plugin} (h : row.Holds p) : (p.timed row).WellFormed :=
  ⟨h.wellFormed.named, h.wellFormed.encoded, h.wellFormed.releases, h.wellFormed.undeclared⟩

/-- A row keeps one record only. -/
theorem Holds.unique {row : Row} {p q : Plugin} (hp : row.Holds p) (hq : row.Holds q) : p = q :=
  Except.ok.inj (hp.read.symm.trans hq.read)

/-- A record that was made is kept. -/
theorem holds_made {p : Plugin} {body : Json} (h : p.WellFormed) (hbody : p.writeBody = .ok body)
    (htag : Catalog.tagFault? p.service = none) {row : Row} (hid : row.id = p.id)
    (hrow : row.body = body) : row.Holds p.restored where
  wellFormed := h.restored
  steady := p.restored_restored
  body := hrow ▸ Plugin.writeBody_restored hbody
  id := hid.symm
  tag := htag

/-- A record that was written is kept, or the one before it if they are alike. -/
theorem Holds.written {row : Row} {p q : Plugin} {body : Json} (h : row.Holds p)
    (hq : q.WellFormed) (hbody : q.writeBody = .ok body)
    (htag : Catalog.tagFault? q.service = none) (hid : q.id = row.id) (now : CivilTime) :
    (Catalog.written now q body row).Holds (p.overwrittenBy q) := by
  have hqbody : q.body = body := (Plugin.writeBody_eq_ok.mp hbody).2.2
  unfold Plugin.overwrittenBy
  rw [hqbody, h.body_eq]
  -- the body of the row changes exactly when the new body is not alike
  split
  · rename_i halike
    refine ⟨h.wellFormed, h.steady, ?_, h.id, h.tag⟩
    rw [h.body]
    simp only [Catalog.written, if_pos halike]
  · rename_i halike
    exact holds_made hq hbody htag hid.symm (by simp only [Catalog.written, if_neg halike])

end Row

/-! ## Worlds -/

namespace World

variable {σ : Type}

/-- The row of an id. -/
def row? (w : World σ) (id : String) : Option Row := w.table.bind (·.find? id)

/-- The record of an id, if there is one that can be read. -/
def plugin? (w : World σ) (id : String) : Option Plugin :=
  (w.row? id).bind fun row => (Plugin.ofRow row).toOption

/-- A table that may be written, every row of which keeps a record. -/
structure Sound (w : World σ) : Prop where
  /-- There is a table. -/
  table : ∃ t, w.table = some t
  /-- It may be written. -/
  writable : w.readOnly = false
  /-- Every row keeps a record. -/
  rows : ∀ id row, w.row? id = some row → ∃ p, row.Holds p

/-- There is an empty table that may be written. -/
structure Empty (w : World σ) : Prop where
  /-- The table is empty. -/
  table : w.table = some .empty
  /-- It may be written. -/
  writable : w.readOnly = false

theorem row?_of_table {w : World σ} {t : Table} (ht : w.table = some t) (id : String) :
    w.row? id = t.find? id := by
  unfold row?
  rw [ht]
  rfl

theorem id_of_row? {w : World σ} {id : String} {row : Row} (h : w.row? id = some row) :
    row.id = id := by
  obtain ⟨t, _, hrow⟩ := Option.bind_eq_some_iff.mp h
  exact Table.id_of_find? hrow

theorem plugin?_of_row {w : World σ} {id : String} {row : Row} {p : Plugin}
    (hrow : w.row? id = some row) (hp : row.Holds p) : w.plugin? id = some (p.timed row) := by
  unfold plugin?
  rw [hrow]
  show (Plugin.ofRow row).toOption = _
  rw [hp.ofRow]
  rfl

theorem Empty.row? {w : World σ} (h : w.Empty) (id : String) : w.row? id = none := by
  rw [row?_of_table h.table]
  rfl

theorem Empty.sound {w : World σ} (h : w.Empty) : w.Sound where
  table := ⟨_, h.table⟩
  writable := h.writable
  rows := by
    intro id row hrow
    rw [h.row? id] at hrow
    cases hrow

/-- The id of a row can be asked for. -/
theorem Sound.textFault?_of_row {w : World σ} (hs : w.Sound) {id : String} {row : Row}
    (h : w.row? id = some row) : textFault? id = none := by
  obtain ⟨p, hp⟩ := hs.rows id row h
  rw [← id_of_row? h, ← hp.id]
  exact hp.wellFormed.textFault?_id

/-- A record that is found is the one that its row keeps. -/
theorem Sound.row_of_plugin? {w : World σ} (hs : w.Sound) {id : String} {found : Plugin}
    (h : w.plugin? id = some found) :
    ∃ row p, w.row? id = some row ∧ row.Holds p ∧ found = p.timed row := by
  obtain ⟨row, hrow, _⟩ := Option.bind_eq_some_iff.mp h
  obtain ⟨p, hp⟩ := hs.rows id row hrow
  exact ⟨row, p, hrow, hp, Option.some.inj (h.symm.trans (plugin?_of_row hrow hp))⟩

theorem Sound.textFault?_of_plugin {w : World σ} (hs : w.Sound) {id : String} {found : Plugin}
    (h : w.plugin? id = some found) : textFault? id = none := by
  obtain ⟨row, _, hrow, _⟩ := hs.row_of_plugin? h
  exact hs.textFault?_of_row hrow

theorem Sound.row_of_plugin?_eq_none {w : World σ} (hs : w.Sound) {id : String}
    (h : w.plugin? id = none) : w.row? id = none := by
  cases hrow : w.row? id with
  | none => rfl
  | some row =>
      obtain ⟨p, hp⟩ := hs.rows id row hrow
      cases h.symm.trans (plugin?_of_row hrow hp)

/-- The records have not changed. -/
structure SameRecords (w w' : World σ) : Prop where
  /-- The rows are the same. -/
  table : w'.table = w.table
  /-- What may be written is the same. -/
  readOnly : w'.readOnly = w.readOnly

theorem Kept.sameRecords {w w' : World σ} (h : w.Kept w') : w.SameRecords w' :=
  ⟨h.table, h.readOnly⟩

theorem SameRecords.trans {w₁ w₂ w₃ : World σ} (h : w₁.SameRecords w₂)
    (h' : w₂.SameRecords w₃) : w₁.SameRecords w₃ :=
  ⟨h'.table.trans h.table, h'.readOnly.trans h.readOnly⟩

theorem SameRecords.row? {w w' : World σ} (h : w.SameRecords w') (id : String) :
    w'.row? id = w.row? id := by
  unfold World.row?
  rw [h.table]

theorem SameRecords.sound {w w' : World σ} (h : w.SameRecords w') (hs : w.Sound) : w'.Sound where
  table := by
    rw [h.table]
    exact hs.table
  writable := h.readOnly.trans hs.writable
  rows := by
    intro id row hrow
    rw [h.row?] at hrow
    exact hs.rows id row hrow

/-- A world is sound after a change of one row if that row keeps a record. -/
theorem Sound.changed {w w' : World σ} (hs : w.Sound) {t' : Table} (ht : w'.table = some t')
    (hro : w'.readOnly = w.readOnly) {id : String}
    (hothers : ∀ id', id' ≠ id → w'.row? id' = w.row? id')
    (hrow : ∀ row, w'.row? id = some row → ∃ p, row.Holds p) : w'.Sound where
  table := ⟨t', ht⟩
  writable := hro.trans hs.writable
  rows := by
    intro id' row h
    by_cases he : id' = id
    · exact hrow row (he ▸ h)
    · rw [hothers id' he] at h
      exact hs.rows id' row h

/-- A record was made under its id. -/
structure Made (w : World σ) (now : CivilTime) (q : Plugin) (w' : World σ) : Prop where
  /-- There was no row of that id. -/
  before : w.row? q.id = none
  /-- Now there is one that keeps the record. -/
  after : ∃ row', w'.row? q.id = some row' ∧ row'.Holds q.restored ∧
    row'.service = q.service ∧ row'.createdAt = now ∧ row'.lastModified = now
  /-- The other rows are as before. -/
  others : ∀ id', id' ≠ q.id → w'.row? id' = w.row? id'

/-- The row of an id was removed, if there was one. -/
structure Removed (w : World σ) (id : String) (w' : World σ) : Prop where
  /-- There is no row of that id. -/
  after : w'.row? id = none
  /-- The other rows are as before. -/
  others : ∀ id', id' ≠ id → w'.row? id' = w.row? id'

/-- A record was written over the one that the row of an id kept. -/
structure Rewritten (w : World σ) (now : CivilTime) (id : String) (row : Row) (p q : Plugin)
    (w' : World σ) : Prop where
  /-- The row was there. -/
  before : w.row? id = some row
  /-- It kept a record. -/
  held : row.Holds p
  /-- Now it keeps the new one over it. -/
  after : ∃ row', w'.row? id = some row' ∧ row'.Holds (p.overwrittenBy q) ∧
    row'.service = q.service ∧ row'.createdAt = row.createdAt ∧ row'.lastModified = now
  /-- The other rows are as before. -/
  others : ∀ id', id' ≠ id → w'.row? id' = w.row? id'

/-- The record that is kept after a record was made. -/
theorem Made.eq_restored {w w' : World σ} {now : CivilTime} {p q : Plugin} {row : Row}
    (h : w.Made now q w') (hrow : w'.row? q.id = some row) (hp : row.Holds p) : p = q.restored := by
  obtain ⟨row', hrow', hq, _⟩ := h.after
  cases hrow.symm.trans hrow'
  exact hp.unique hq

/-- The record that is kept after a record was written over. -/
theorem Rewritten.eq_overwrittenBy {w w' : World σ} {now : CivilTime} {id : String}
    {row row' : Row} {p q p' : Plugin} (h : w.Rewritten now id row p q w')
    (hrow : w'.row? id = some row') (hp : row'.Holds p') : p' = p.overwrittenBy q := by
  obtain ⟨row'', hrow'', hq, _⟩ := h.after
  cases hrow.symm.trans hrow''
  exact hp.unique hq

theorem Rewritten.of_sameRecords {w₀ w w' w₁ : World σ} {now : CivilTime} {id : String}
    {row : Row} {p q : Plugin} (h : w.Rewritten now id row p q w') (h₀ : w₀.SameRecords w)
    (h₁ : w'.SameRecords w₁) : w₀.Rewritten now id row p q w₁ where
  before := (h₀.row? id).symm.trans h.before
  held := h.held
  after := by
    rw [h₁.row? id]
    exact h.after
  others := fun id' hne => by rw [h₁.row? id', h.others id' hne, h₀.row? id']

theorem Made.of_sameRecords {w₀ w w' w₁ : World σ} {now : CivilTime} {q : Plugin}
    (h : w.Made now q w') (h₀ : w₀.SameRecords w) (h₁ : w'.SameRecords w₁) :
    w₀.Made now q w₁ where
  before := (h₀.row? q.id).symm.trans h.before
  after := by
    rw [h₁.row? q.id]
    exact h.after
  others := fun id' hne => by rw [h₁.row? id', h.others id' hne, h₀.row? id']

end World

end PluginRegistry
