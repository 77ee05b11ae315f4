import PluginRegistry.Catalog.Records
import PluginRegistry.Proofs.ActionLaws
import Mathlib.Data.List.Sort
import Mathlib.Data.Option.Basic

/-!
# What the queries of the catalog do

Of each query that a change of a record is made of: that it leaves everything as it was if it fails,
when it goes well, and the table that it leaves then. Queries that only read keep everything
whether they fail or not.
-/

namespace PluginRegistry

namespace Table

/-! ## Rows under their ids -/

theorem id_of_find? {t : Table} {id : String} {row : Row} (h : t.find? id = some row) :
    row.id = id := by
  simpa using List.find?_some h

theorem find?_of_mem {t : Table} {row : Row} (h : row ∈ t.rows) : t.find? row.id = some row := by
  obtain ⟨rows, ordered⟩ := t
  unfold find?
  induction rows with
  | nil => cases h
  | cons r rest ih =>
      obtain ⟨hlt, hrest⟩ := List.pairwise_cons.mp ordered
      rcases List.mem_cons.mp h with rfl | h
      · simp
      · -- the rows are in the order of their ids, so an earlier one is under another id
        have hne : r.id ≠ row.id := fun he => String.lt_irrefl _ (he ▸ hlt row h)
        rw [List.find?_cons_of_neg (by simpa using hne)]
        exact ih hrest h

theorem find?_place {row : Row} {rows : List Row} (id : String)
    (h : ∀ r ∈ rows, row.id ≠ r.id) :
    (place row rows).find? (·.id = id) =
      if row.id = id then some row else rows.find? (·.id = id) := by
  induction rows with
  | nil =>
      unfold place
      split <;> simp [*]
  | cons r rest ih =>
      obtain ⟨h1, h2⟩ := List.forall_mem_cons.mp h
      unfold place
      split
      · -- it is put in front of the rows with larger ids
        split <;> simp [*]
      · by_cases hr : r.id = id
        · have : row.id ≠ id := fun he => h1 (he.trans hr.symm)
          rw [List.find?_cons_of_pos (by simpa using hr), if_neg this,
            List.find?_cons_of_pos (by simpa using hr)]
        · rw [List.find?_cons_of_neg (by simpa using hr), ih h2,
            List.find?_cons_of_neg (by simpa using hr)]

theorem find?_eq_none {t : Table} {id : String} :
    t.find? id = none ↔ ∀ r ∈ t.rows, id ≠ r.id := by
  unfold find?
  rw [List.find?_eq_none]
  simp [eq_comm]

theorem insert?_eq_some {t t' : Table} {row : Row} (h : t.insert? row = some t') (id : String) :
    t.find? row.id = none ∧ t'.find? id = if row.id = id then some row else t.find? id := by
  unfold insert? at h
  split at h
  · rename_i hnew
    cases h
    exact ⟨find?_eq_none.mpr hnew, find?_place id hnew⟩
  · cases h

theorem find?_modify (t : Table) (id : String) (change : Row → Row) (id' : String) :
    (t.modify id change).find? id' =
      if id' = id then (t.find? id).map fun r => { change r with id := r.id }
      else t.find? id' := by
  have hfound : (t.modify id change).find? id' =
      (t.find? id').map fun r => if r.id = id then { change r with id := r.id } else r := by
    unfold find? modify
    rw [List.find?_map]
    congr 2
    funext r
    by_cases hr : r.id = id <;> simp [hr]
  rw [hfound]
  -- the change keeps the id, so a row is found where it was found before
  split
  · rename_i he
    subst he
    cases h : t.find? id' with
    | none => rfl
    | some r => simp [id_of_find? h]
  · rename_i he
    cases h : t.find? id' with
    | none => rfl
    | some r => simp [id_of_find? h, he]

theorem find?_erase (t : Table) (id id' : String) :
    (t.erase id).find? id' = if id' = id then none else t.find? id' := by
  unfold find? erase
  rw [List.find?_filter]
  split
  · rename_i h
    subst h
    simp
  · rename_i h
    congr 1
    funext r
    by_cases hr : r.id = id'
    · simp [hr, h]
    · simp [hr]

/-- A table is what is found in it. -/
theorem eq_of_find? {t t' : Table} (h : ∀ id, t'.find? id = t.find? id) : t' = t := by
  have hmem : ∀ row, row ∈ t'.rows ↔ row ∈ t.rows := by
    intro row
    constructor
    · intro hrow
      exact List.mem_of_find?_eq_some ((h row.id).symm.trans (find?_of_mem hrow))
    · intro hrow
      exact List.mem_of_find?_eq_some ((h row.id).trans (find?_of_mem hrow))
  -- both have the same rows, and the ids leave them one order only
  have hirrefl : Std.Irrefl fun a b : Row => a.id < b.id := ⟨fun row => String.lt_irrefl row.id⟩
  have hantisymm : Std.Antisymm fun a b : Row => a.id < b.id :=
    ⟨fun _ _ hab hba => absurd hba (String.lt_asymm hab)⟩
  have hrows : t'.rows = t.rows := t'.ordered.eq_of_mem_iff t.ordered hmem
  cases t
  cases t'
  cases hrows
  rfl

end Table

/-- An entry that does not start as the lines of the audit do is none of them. -/
theorem Log.Entry.not_isAudit {topic : Topic} {message : String}
    (h : message.toList.head? ≠ some 'A') : ¬IsAudit ⟨topic, message⟩ := by
  rintro ⟨rest, hrest⟩
  rw [← hrest] at h
  exact h rfl

namespace Catalog

open PluginRegistry.Action

variable {σ α : Type}

/-! ## Queries that only read -/

theorem keeps_measure (timing : Timing) (query : Query) :
    (measure timing query : Action σ Unit).Keeps := by
  intro w
  unfold measure Query.entry
  by_cases hslow : Query.exceeds timing.duration timing.threshold
  · rw [if_pos hslow]
    exact .noted (Log.Entry.not_isAudit (by simp))
  · rw [if_neg hslow]
    exact .refl w

theorem keeps_fail (topic : Log.Topic) (what : String) (fault : CatalogFault) :
    (fail topic what fault : Action σ α).Keeps :=
  (keeps_note (Log.Entry.not_isAudit (by simp))).bind fun _ => keeps_throw _

/-- Nothing that would come after a failure is done. -/
theorem keeps_fail_bind {β : Type} (topic : Log.Topic) (what : String) (fault : CatalogFault)
    (next : α → Action σ β) : (fail topic what fault >>= next).Keeps :=
  fun _ => .noted (Log.Entry.not_isAudit (by simp))

theorem keeps_table (topic : Log.Topic) (what : String) :
    (table topic what : Action σ Table).Keeps := by
  refine keeps_get.bind fun w => ?_
  split
  · exact keeps_pure _
  · exact keeps_fail _ _ _

theorem keeps_get (timing : Timing) (id : String) :
    (get timing id : Action σ (Option Row)).Keeps := by
  refine (keeps_table _ _).bind fun _ => ?_
  dsimp only
  split
  · exact keeps_fail_bind _ _ _ _
  · exact (keeps_measure _ _).bind fun _ => keeps_pure _

theorem keeps_findMany (timing : Timing) (filters : Filters) :
    (findMany timing filters : Action σ (List Row)).Keeps := by
  unfold findMany
  dsimp only
  split
  · exact keeps_fail _ _ _
  · split
    · exact keeps_fail_bind _ _ _ _
    · refine (keeps_table _ _).bind fun t => ?_
      split
      · exact keeps_fail_bind _ _ _ _
      · exact (keeps_measure _ _).bind fun _ => keeps_pure _

theorem keeps_recordOf (row : Row) : (recordOf row : Action σ Plugin).Keeps := keeps_ofExcept _ _

theorem keeps_all (timing : Timing) : (all timing : Action σ (List Plugin)).Keeps :=
  ((keeps_findMany _ _).bind fun rows => keeps_mapM keeps_recordOf rows).session

theorem keeps_byService (timing : Timing) (service : Json) :
    (byService timing service : Action σ (List Plugin)).Keeps :=
  ((keeps_findMany _ _).bind fun rows => keeps_mapM keeps_recordOf rows).session

theorem keeps_byId? (timing : Timing) (id : String) :
    (byId? timing id : Action σ (Option Plugin)).Keeps := by
  refine ((keeps_get _ _).bind fun row => ?_).session
  cases row with
  | none => exact keeps_pure _
  | some row => exact (keeps_recordOf row).bind fun _ => keeps_pure _

theorem keeps_byId (timing : Timing) (id : String) : (byId timing id : Action σ Plugin).Keeps := by
  refine (keeps_byId? _ _).bind fun found => ?_
  cases found with
  | none => exact keeps_refuse _
  | some p => exact keeps_pure _

theorem keeps_requireOwnId (id : String) (plugin : Plugin) :
    (requireOwnId id plugin : Action σ Unit).Keeps := by
  unfold requireOwnId
  split
  · exact keeps_pure _
  · exact keeps_refuse _

/-! ## Queries that write -/

theorem calm_modifyTable (f : Option Table → Option Table) :
    (modify fun w => { w with table := f w.table } : Action σ PUnit).Calm :=
  fun w => ⟨rfl, rfl, [], (List.append_nil _).symm, fun _ he => by cases he⟩

theorem calm_replace (t : Table) : (replace t : Action σ Unit).Calm :=
  calm_modifyTable fun _ => some t

theorem calm_add (timing : Timing) (row : Row) : (add timing row : Action σ Unit).Calm := by
  unfold add
  refine (keeps_table _ _).calm.bind fun t => ?_
  dsimp only
  split
  · exact (keeps_fail_bind _ _ _ _).calm
  · refine keeps_isReadOnly.calm.bind fun readOnly => ?_
    split
    · exact (keeps_fail_bind _ _ _ _).calm
    · -- here the table is written, and nothing else is
      split
      · exact (calm_replace _).bind fun _ => (keeps_measure _ _).calm
      · exact (keeps_fail _ _ _).calm

theorem calm_remove (timing : Timing) (row : Option Row) :
    (remove timing row : Action σ Unit).Calm := by
  unfold remove
  dsimp only
  split
  · refine (keeps_table _ _).calm.bind fun t => keeps_isReadOnly.calm.bind fun readOnly => ?_
    split
    · exact (keeps_fail_bind _ _ _ _).calm
    · exact (calm_replace _).bind fun _ => (keeps_measure _ _).calm
  · exact (keeps_fail _ _ _).calm

/-- A change whose part in the session is calm is calm, and it is undone if it fails. -/
theorem calm_and_atomic {id : String} {plugin : Plugin} {x : Action σ α} (hx : x.Calm) :
    (requireOwnId id plugin >>= fun _ => Action.session x).Calm ∧
      (requireOwnId id plugin >>= fun _ => Action.session x).Atomic :=
  have ⟨hcalm, hatomic⟩ := hx.session_calm_and_atomic
  ⟨(keeps_requireOwnId _ _).calm.bind fun _ => hcalm,
    (keeps_requireOwnId _ _).bind_atomic fun _ => hatomic⟩

theorem insert_calm_and_atomic (timing : Timing) (now : CivilTime) (id : String)
    (plugin : Plugin) :
    (insert timing now id plugin : Action σ Plugin).Calm ∧
      (insert timing now id plugin : Action σ Plugin).Atomic := by
  refine calm_and_atomic ?_
  refine (keeps_get _ _).calm.bind fun found => ?_
  dsimp only
  split
  · exact (keeps_throw_bind _ _).calm
  · exact (keeps_ofExcept _ _).calm.bind fun _ => (calm_add _ _).bind fun _ =>
      (keeps_recordOf _).calm

theorem update_calm_and_atomic (timing : Timing) (now : CivilTime) (id : String)
    (plugin : Plugin) :
    (update timing now id plugin : Action σ Plugin).Calm ∧
      (update timing now id plugin : Action σ Plugin).Atomic := by
  refine calm_and_atomic ?_
  refine (keeps_get _ _).calm.bind fun found => ?_
  dsimp only
  split
  · exact (keeps_refuse _).calm
  · refine (keeps_ofExcept _ _).calm.bind fun body => ?_
    split
    · exact (keeps_throw_bind _ _).calm
    · refine keeps_isReadOnly.calm.bind fun readOnly => ?_
      split
      · exact (keeps_throw_bind _ _).calm
      · exact (calm_modifyTable _).bind fun _ => (keeps_pure _).calm

theorem delete_calm_and_atomic (timing : Timing) (id : String) :
    (delete timing id : Action σ Unit).Calm ∧ (delete timing id : Action σ Unit).Atomic := by
  refine Calm.session_calm_and_atomic ((keeps_get _ _).calm.bind fun found => ?_)
  cases found with
  | none => exact (keeps_pure _).calm
  | some row => exact calm_remove _ _

/-! ## What the queries give when there is a table -/

theorem start_table {w : World σ} {t : Table} (ht : w.table = some t) (topic : Log.Topic)
    (what : String) : (table topic what : Action σ Table).start w = (.ok t, w) := by
  unfold table
  rw [start_bind, Action.start_get]
  simp only [ht]
  rfl

theorem total_measure (timing : Timing) (query : Query) :
    (measure timing query : Action σ Unit).Total := by
  unfold measure
  dsimp only
  split
  · exact total_modify _
  · exact total_pure _

theorem measure_start (timing : Timing) (query : Query) (w : World σ) :
    ∃ w', w.Kept w' ∧ (measure timing query).start w = (.ok (), w') := by
  obtain ⟨_, w', hk, h⟩ := (total_measure timing query).of_keeps (keeps_measure timing query) w
  exact ⟨w', hk, h⟩

/-- What is answered when a table is asked for the row of an id. -/
def lookup (t : Table) (id : String) : Except Failure (Option Row) :=
  match textFault? id with
  | some fault => .error (.catalog fault)
  | none => .ok (t.find? id)

theorem lookup_of_octets {t : Table} {id : String} (hid : textFault? id = none) :
    lookup t id = .ok (t.find? id) := by
  rw [lookup, hid]

theorem lookup_eq_ok {t : Table} {id : String} {row : Option Row} :
    lookup t id = .ok row ↔ textFault? id = none ∧ t.find? id = row := by
  unfold lookup
  cases textFault? id <;> simp

theorem start_get {w : World σ} {t : Table} (ht : w.table = some t) (timing : Timing)
    (id : String) : ∃ w', w.Kept w' ∧ (get timing id).start w = (lookup t id, w') := by
  cases hid : textFault? id with
  | none =>
      obtain ⟨w', hk, hm⟩ := measure_start timing ⟨.str "get", .obj [("key", .str id)], .null⟩ w
      refine ⟨w', hk, ?_⟩
      unfold get
      rw [start_bind, start_table ht, lookup_of_octets hid]
      simp only [hid, start_bind, hm]
      rfl
  | some fault =>
      let entry : Log.Entry :=
        ⟨.getFailed, "Error " ++ ("in get with key " ++ id) ++ ": " ++ fault.message⟩
      refine ⟨{ w with log := w.log ++ [entry] }, .noted (Log.Entry.not_isAudit (by simp)), ?_⟩
      unfold get
      rw [start_bind, start_table ht, lookup, hid]
      rfl

theorem get_of_table {w : World σ} {t : Table} (ht : w.table = some t) (timing : Timing)
    {id : String} (hid : textFault? id = none) :
    ∃ w', w.Kept w' ∧ (get timing id).start w = (.ok (t.find? id), w') := by
  obtain ⟨w', hk, hg⟩ := start_get ht timing id
  exact ⟨w', hk, lookup_of_octets hid ▸ hg⟩

theorem get_eq_ok {w w' : World σ} {t : Table} (ht : w.table = some t) {timing : Timing}
    {id : String} {row : Option Row} (h : (get timing id).start w = (.ok row, w')) :
    textFault? id = none ∧ t.find? id = row ∧ w.Kept w' := by
  obtain ⟨w₁, hk, hg⟩ := start_get ht timing id
  obtain ⟨hfound, rfl⟩ := Prod.mk.inj (hg.symm.trans h)
  obtain ⟨hid, hrow⟩ := lookup_eq_ok.mp hfound
  exact ⟨hid, hrow, hk⟩

/-- An id that cannot be asked for is refused, and everything is kept. -/
theorem byId?_of_fault {w : World σ} {t : Table} (ht : w.table = some t) (timing : Timing)
    {id : String} {fault : CatalogFault} (hid : textFault? id = some fault) :
    ∃ w', w.Kept w' ∧ (byId? timing id).start w = (.error (.catalog fault), w') := by
  obtain ⟨w', hk, hg⟩ := start_get ht timing id
  rw [lookup, hid] at hg
  refine ⟨w', hk, ?_⟩
  unfold byId?
  rw [start_session, start_bind, hg, ← hk.table]

theorem byId?_of_missing {w : World σ} {t : Table} (ht : w.table = some t) (timing : Timing)
    {id : String} (hoctets : textFault? id = none) (hid : t.find? id = none) :
    ∃ w', w.Kept w' ∧ (byId? timing id).start w = (.ok none, w') := by
  obtain ⟨w', hk, hg⟩ := get_of_table ht timing hoctets
  refine ⟨w', hk, ?_⟩
  unfold byId?
  rw [start_session_eq_ok, start_bind_eq_ok]
  rw [hid] at hg
  exact ⟨none, w', hg, rfl⟩

theorem byId?_of_row {w : World σ} {t : Table} (ht : w.table = some t) (timing : Timing)
    {id : String} {row : Row} {p : Plugin} (hoctets : textFault? id = none)
    (hid : t.find? id = some row) (hp : Plugin.ofRow row = .ok p) :
    ∃ w', w.Kept w' ∧ (byId? timing id).start w = (.ok (some p), w') := by
  obtain ⟨w', hk, hg⟩ := get_of_table ht timing hoctets
  refine ⟨w', hk, ?_⟩
  unfold byId?
  rw [start_session_eq_ok, start_bind_eq_ok]
  rw [hid] at hg
  refine ⟨some row, w', hg, ?_⟩
  show start (recordOf row >>= _) w' = _
  unfold recordOf
  rw [hp]
  rfl

theorem requireOwnId_eq_ok {w w' : World σ} {id : String} {plugin : Plugin} {u : Unit}
    (h : (requireOwnId id plugin).start w = (.ok u, w')) : plugin.id = id ∧ w' = w := by
  unfold requireOwnId at h
  split at h
  · rename_i hid
    cases h
    exact ⟨hid, rfl⟩
  · cases h

theorem add_eq_ok {w w' : World σ} {t : Table} (ht : w.table = some t) {timing : Timing}
    {row : Row} {u : Unit} (h : (add timing row).start w = (.ok u, w')) :
    ∃ t', t.insert? row = some t' ∧ tagFault? row.service = none ∧ w.readOnly = false ∧
      w'.table = some t' := by
  unfold add at h
  rw [start_bind, start_table ht] at h
  dsimp only at h
  split at h
  · cases h
  · rename_i hfault
    have hnone := Option.eq_none_iff_forall_ne_some.mpr hfault
    rw [start_bind, start_isReadOnly] at h
    dsimp only at h
    split at h
    · cases h
    · rename_i hwritable
      split at h
      · rename_i t' hinsert
        rw [start_bind_eq_ok] at h
        obtain ⟨_, w₁, hreplace, hmeasure⟩ := h
        cases hreplace
        refine ⟨t', hinsert, ((Option.orElse_eq_none _ _).mp hnone).2, by simpa using hwritable, ?_⟩
        exact ((keeps_measure _ _).of_start hmeasure).table
      · cases h

/-- What there was when a record was made, and what there is then. -/
theorem insert_eq_ok {w w' : World σ} {t : Table} (ht : w.table = some t) {timing : Timing}
    {now : CivilTime} {id : String} {plugin p : Plugin}
    (h : (insert timing now id plugin).start w = (.ok p, w')) :
    ∃ body t', plugin.id = id ∧ plugin.writeBody = .ok body ∧
      tagFault? plugin.service = none ∧ w.readOnly = false ∧
      t.insert? ⟨id, plugin.service, body, now, now⟩ = some t' ∧ w'.table = some t' ∧
      w.Calm w' ∧ Plugin.ofRow ⟨id, plugin.service, body, now, now⟩ = .ok p := by
  have hcalm := (insert_calm_and_atomic timing now id plugin).1.of_start h
  unfold insert at h
  rw [start_bind_eq_ok] at h
  obtain ⟨_, w₁, hown, h⟩ := h
  obtain ⟨hid, rfl⟩ := requireOwnId_eq_ok hown
  -- inside the session: look the id up, write the body, add the row, read it back
  rw [start_session_eq_ok, start_bind_eq_ok] at h
  obtain ⟨found, w₂, hget, h⟩ := h
  have hk := (keeps_get timing id).of_start hget
  dsimp only at h
  split at h
  · cases h
  · rw [start_bind_eq_ok] at h
    obtain ⟨body, w₃, hbody, h⟩ := h
    obtain ⟨hwrite, rfl⟩ := start_ofExcept_eq_ok.mp hbody
    rw [start_bind_eq_ok] at h
    obtain ⟨_, w₄, hadd, h⟩ := h
    obtain ⟨hrow, rfl⟩ := start_ofExcept_eq_ok.mp h
    obtain ⟨t', hinsert, htag, hwritable, htable⟩ := add_eq_ok (hk.table.trans ht) hadd
    exact ⟨body, t', hid, hwrite, htag, hk.readOnly.symm.trans hwritable, hinsert, htable, hcalm,
      hrow⟩

/-- What there was when a record was written, and what there is then. -/
theorem update_eq_ok {w w' : World σ} {t : Table} (ht : w.table = some t) {timing : Timing}
    {now : CivilTime} {id : String} {plugin p : Plugin}
    (h : (update timing now id plugin).start w = (.ok p, w')) :
    ∃ row body, plugin.id = id ∧ t.find? id = some row ∧ plugin.writeBody = .ok body ∧
      tagFault? plugin.service = none ∧ w.readOnly = false ∧
      w'.table = some (t.modify id (written now plugin body)) ∧ w.Calm w' ∧
      p = { plugin with
        createTs := some (.utc row.createdAt)
        lastModified := some (.utc now) } := by
  have hcalm := (update_calm_and_atomic timing now id plugin).1.of_start h
  unfold update at h
  rw [start_bind_eq_ok] at h
  obtain ⟨_, w₁, hown, h⟩ := h
  obtain ⟨hid, rfl⟩ := requireOwnId_eq_ok hown
  -- inside the session: look the row up, write the body, check tag and table, change the row
  rw [start_session_eq_ok, start_bind_eq_ok] at h
  obtain ⟨found, w₂, hget, h⟩ := h
  obtain ⟨-, hfind, hk⟩ := get_eq_ok ht hget
  dsimp only at h
  split at h
  · cases h
  · rename_i row
    rw [start_bind_eq_ok] at h
    obtain ⟨body, w₃, hbody, h⟩ := h
    obtain ⟨hwrite, rfl⟩ := start_ofExcept_eq_ok.mp hbody
    split at h
    · cases h
    · rename_i hfault
      have htag := Option.eq_none_iff_forall_ne_some.mpr hfault
      rw [start_bind, start_isReadOnly] at h
      dsimp only at h
      split at h
      · cases h
      · rename_i hwritable
        cases h
        refine ⟨row, body, hid, hfind, hwrite, htag, ?_, ?_, hcalm, rfl⟩
        · rw [← hk.readOnly]
          simpa using hwritable
        · show w₃.table.map _ = _
          rw [hk.table, ht]
          rfl

/-- A record that can be written is written. -/
theorem update_of_row {w : World σ} {t : Table} (ht : w.table = some t) (timing : Timing)
    (now : CivilTime) {plugin : Plugin} {row : Row} {body : Json}
    (hoctets : textFault? plugin.id = none) (hrow : t.find? plugin.id = some row)
    (hbody : plugin.writeBody = .ok body) (htag : tagFault? plugin.service = none)
    (hwritable : w.readOnly = false) :
    ∃ p w', (update timing now plugin.id plugin).start w = (.ok p, w') := by
  obtain ⟨w₁, hk, hget⟩ := get_of_table ht timing hoctets
  rw [hrow] at hget
  have hown : (requireOwnId plugin.id plugin : Action σ Unit) = pure () := if_pos rfl
  refine ⟨{ plugin with
    createTs := some (.utc row.createdAt)
    lastModified := some (.utc now) },
    { w₁ with table := w₁.table.map (·.modify plugin.id (written now plugin body)) }, ?_⟩
  unfold update
  rw [hown, pure_bind, start_session_eq_ok, start_bind_eq_ok]
  refine ⟨some row, w₁, hget, ?_⟩
  rw [hbody]
  simp only [Action.ofExcept, pure_bind, htag]
  rw [start_bind, start_isReadOnly]
  dsimp only
  rw [if_neg (by simp [hk.readOnly, hwritable])]
  rfl

/-- A record that is there is removed. -/
theorem delete_of_row {w : World σ} {t : Table} (ht : w.table = some t) (timing : Timing)
    {id : String} {row : Row} (hoctets : textFault? id = none) (hrow : t.find? id = some row)
    (hwritable : w.readOnly = false) :
    ∃ w', (delete timing id).start w = (.ok (), w') ∧ w'.table = some (t.erase id) ∧ w.Calm w' := by
  obtain ⟨w₁, hk, hget⟩ := get_of_table ht timing hoctets
  rw [hrow] at hget
  have hid := Table.id_of_find? hrow
  obtain ⟨w₂, hk', hmeasure⟩ := measure_start timing ⟨.str "remove", modelSubject, .null⟩
    { w₁ with table := some (t.erase id) }
  have hstart : (delete timing id).start w = (.ok (), w₂) := by
    unfold delete
    rw [start_session_eq_ok, start_bind_eq_ok]
    refine ⟨some row, w₁, hget, ?_⟩
    unfold remove
    rw [start_bind, start_table (hk.table.trans ht)]
    simp only [start_bind, start_isReadOnly, hk.readOnly, hwritable]
    rw [hid]
    exact hmeasure
  exact ⟨w₂, hstart, hk'.table, (delete_calm_and_atomic timing id).1.of_start hstart⟩

end Catalog

end PluginRegistry
