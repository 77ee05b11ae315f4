import PluginRegistry.Proofs.Effects

/-!
# Actions on one row

An action works on the row of an id if it changes no other row, and if what it answers and what
becomes of the row depend on no other row: two states that agree on the row get the same result or
the same failure, and agree on the row afterwards. The actions of the catalog that name an id are of
this kind, and those that follow one another on the same row are so together.

A record is written back under the id that it was read with, so it has to be read with the id of its
row. Every row that the registry writes is such a row, for a body is read with the id it was written
with.
-/

namespace PluginRegistry

/-! ## The id of a body -/

theorem Schema.nonemptyText_str {s t : String}
    (h : nonemptyText (Json.str s).toDocument = .ok t) : t = s := by
  unfold nonemptyText Checked.andThen at h
  split at h
  · rename_i a htext
    cases htext
    dsimp only at h
    split at h
    · cases h
    · split at h
      · cases h
      · exact (Checked.ok.inj h).symm
  · cases h

/-- A body is read with the id that it was written with. -/
theorem Plugin.id_of_read_body {p q : Plugin} (h : read p.body.toDocument = .ok q) :
    q.id = p.id := by
  obtain ⟨hid, -, -⟩ := parts_of_ofDocument (read_eq_ok h)
  have hfound := find?_body (p := p) 0 (rfl : _ = some ((⟨"id", "id"⟩ : Schema.Field).key, _))
  unfold Schema.required at hid
  rw [hfound] at hid
  exact Schema.nonemptyText_str (Schema.Checked.within_eq_ok.mp hid)

/-- What the row is read as, if anything, has the id. -/
def Row.Names (row : Row) (id : String) : Prop :=
  ∀ p, Plugin.read row.body.toDocument = .ok p → p.id = id

theorem Row.Names.ofRow {row : Row} {id : String} (h : row.Names id) {p : Plugin}
    (hp : Plugin.ofRow row = .ok p) : p.id = id := by
  unfold Plugin.ofRow at hp
  cases hread : Plugin.read row.body.toDocument with
  | error rejection =>
      rw [hread] at hp
      cases hp
  | ok q =>
      rw [hread] at hp
      cases hp
      exact h q hread

theorem Row.Names.written {row : Row} {plugin : Plugin} {body : Json} (h : row.Names plugin.id)
    (hbody : plugin.writeBody = .ok body) (now : CivilTime) :
    (Catalog.written now plugin body row).Names plugin.id := by
  intro p hp
  obtain rfl : plugin.body = body := (Plugin.writeBody_eq_ok.mp hbody).2.2
  unfold Catalog.written at hp
  dsimp only at hp
  split at hp
  · exact h p hp
  · exact Plugin.id_of_read_body hp

/-! ## States that agree on a row -/

namespace World

variable {σ : Type} {w w' w₁ w₁' w₂ : World σ} {id : String}

/-- The two states tell the same of one row. -/
structure Agrees (id : String) (w w' : World σ) : Prop where
  /-- There is a table in both, or in neither. -/
  table : w'.table.isSome = w.table.isSome
  /-- What may be written is the same. -/
  readOnly : w'.readOnly = w.readOnly
  /-- The row is the same. -/
  row : w'.row? id = w.row? id
  /-- The row is read with its own id. -/
  named : ∀ row, w.row? id = some row → row.Names id

/-- At most one row has changed. -/
structure Within (id : String) (w w' : World σ) : Prop where
  /-- There is a table as before. -/
  table : w'.table.isSome = w.table.isSome
  /-- What may be written is the same. -/
  readOnly : w'.readOnly = w.readOnly
  /-- The other rows are as before. -/
  others : ∀ other, other ≠ id → w'.row? other = w.row? other

theorem Within.trans (h : w.Within id w₁) (h' : w₁.Within id w₂) : w.Within id w₂ :=
  ⟨h'.table.trans h.table, h'.readOnly.trans h.readOnly,
    fun other hne => (h'.others other hne).trans (h.others other hne)⟩

theorem SameRecords.within (h : w.SameRecords w₁) (id : String) : w.Within id w₁ :=
  ⟨congrArg Option.isSome h.table, h.readOnly, fun other _ => h.row? other⟩

theorem Agrees.refl_of_sound (h : w.Sound) (id : String) : w.Agrees id w where
  table := rfl
  readOnly := rfl
  row := rfl
  named row hrow p hp := by
    obtain ⟨q, hq⟩ := h.rows id row hrow
    cases hq.read.symm.trans hp
    exact hq.id.trans (id_of_row? hrow)

theorem Agrees.right (h : w.Agrees id w') : w'.Agrees id w' :=
  ⟨rfl, rfl, rfl, fun row hrow => h.named row (h.row ▸ hrow)⟩

/-- What leaves the records alone leaves states that agree. -/
theorem Agrees.of_sameRecords (h : w.Agrees id w') (h₁ : w.SameRecords w₁)
    (h₁' : w'.SameRecords w₁') : w₁.Agrees id w₁' where
  table := by rw [h₁'.table, h₁.table, h.table]
  readOnly := by rw [h₁'.readOnly, h₁.readOnly, h.readOnly]
  row := by rw [h₁'.row?, h₁.row?, h.row]
  named row hrow := h.named row (h₁.row? id ▸ hrow)

theorem Agrees.no_table (h : w.Agrees id w') (ht : w.table = none) : w'.table = none := by
  simpa [ht] using h.table

theorem Agrees.find? (h : w.Agrees id w') {t : Table} (ht : w.table = some t) :
    ∃ t', w'.table = some t' ∧ t'.find? id = t.find? id := by
  obtain ⟨t', ht'⟩ : ∃ t', w'.table = some t' := by
    rw [← Option.isSome_iff_exists, h.table, ht]
    rfl
  exact ⟨t', ht', by rw [← row?_of_table ht', ← row?_of_table ht, h.row]⟩

/-- What changes another row leaves states that agree. -/
theorem Agrees.of_within {other : String} (h : w.Agrees id w) (hne : id ≠ other)
    (hwithin : w.Within other w₁) : w.Agrees id w₁ where
  table := hwithin.table
  readOnly := hwithin.readOnly
  row := hwithin.others id hne
  named := h.named

/-- A change of the row that depends on nothing else leaves states that agree. -/
theorem Agrees.of_tables {t u u' : Table} (h : w.Agrees id w') (ht : w.table = some t)
    (hu : w₁.table = some u) (hu' : w₁'.table = some u')
    (hcalm : w.Calm w₁) (hcalm' : w'.Calm w₁') {after : Option Row} (hafter : u.find? id = after)
    (hafter' : u'.find? id = after) (hnames : ∀ row, after = some row → row.Names id)
    (hothers : ∀ other, other ≠ id → u.find? other = t.find? other) :
    w₁.Agrees id w₁' ∧ w.Within id w₁ := by
  have hrow : w₁.row? id = after := (row?_of_table hu id).trans hafter
  refine ⟨⟨?_, ?_, ?_, ?_⟩, ?_, hcalm.readOnly, ?_⟩
  · rw [hu, hu']
    rfl
  · rw [hcalm'.readOnly, hcalm.readOnly, h.readOnly]
  · rw [hrow, row?_of_table hu', hafter']
  · intro row hsome
    exact hnames row (hrow.symm.trans hsome)
  · rw [hu, ht]
    rfl
  · intro other hne
    rw [row?_of_table hu, row?_of_table ht, hothers other hne]

end World

/-! ## Local actions -/

namespace Action

variable {σ α β : Type} {id : String}

/-- The action works on the row of the id. -/
def Local (id : String) (x : Action σ α) : Prop :=
  ∀ w w' : World σ, w.Agrees id w' →
    (start x w').1 = (start x w).1 ∧ (start x w).2.Agrees id (start x w').2 ∧
      w.Within id (start x w).2

/-- An action that leaves the records alone and answers the same in any state is local. -/
theorem local_of_sameRecords {x : Action σ α} {answer : Except Failure α}
    (h : ∀ w : World σ, (start x w).1 = answer ∧ w.SameRecords (start x w).2) : x.Local id := by
  intro w w' hagrees
  obtain ⟨ha, hs⟩ := h w
  obtain ⟨ha', hs'⟩ := h w'
  exact ⟨ha'.trans ha.symm, hagrees.of_sameRecords hs hs', hs.within id⟩

theorem local_pure (a : α) : (pure a : Action σ α).Local id :=
  local_of_sameRecords fun _ => ⟨rfl, rfl, rfl⟩

theorem local_throw (failure : Failure) : (throw failure : Action σ α).Local id :=
  local_of_sameRecords fun _ => ⟨rfl, rfl, rfl⟩

/-- Nothing that would come after a failure is done. -/
theorem local_throw_bind (failure : Failure) (next : α → Action σ β) :
    (throw failure >>= next : Action σ β).Local id :=
  local_of_sameRecords fun _ => ⟨rfl, rfl, rfl⟩

theorem local_refuse (error : PluginError) : (refuse error : Action σ α).Local id :=
  local_throw _

theorem local_note (topic : Log.Topic) (message : String) :
    (note topic message : Action σ Unit).Local id :=
  local_of_sameRecords fun _ => ⟨rfl, rfl, rfl⟩

theorem local_ofExcept {ε : Type} (failure : ε → Failure) (x : Except ε α) :
    (ofExcept failure x : Action σ α).Local id := by
  cases x with
  | ok a => exact local_pure a
  | error e => exact local_throw _

/-- Local actions on the same row follow one another as one. What comes second may count on what
the first one gives in a state whose row is read with its own id. -/
theorem Local.bind {x : Action σ α} {f : α → Action σ β} (hx : x.Local id)
    (hf : ∀ w a w₁, w.Agrees id w → start x w = (.ok a, w₁) → (f a).Local id) :
    (x >>= f).Local id := by
  intro w w' hagrees
  have hself : w.Agrees id w := ⟨rfl, rfl, rfl, hagrees.named⟩
  obtain ⟨hresult, hagrees₁, hwithin⟩ := hx w w' hagrees
  rw [start_bind, start_bind]
  rcases hstart : start x w with ⟨failure | a, w₁⟩
  · rw [hstart] at hresult hagrees₁ hwithin
    generalize start x w' = outcome at hresult hagrees₁ ⊢
    obtain ⟨answer', w₁'⟩ := outcome
    cases hresult
    exact ⟨rfl, hagrees₁, hwithin⟩
  · rw [hstart] at hresult hagrees₁ hwithin
    generalize start x w' = outcome at hresult hagrees₁ ⊢
    obtain ⟨answer', w₁'⟩ := outcome
    cases hresult
    obtain ⟨hresult₂, hagrees₂, hwithin₂⟩ := hf w a w₁ hself hstart w₁ w₁' hagrees₁
    exact ⟨hresult₂, hagrees₂, hwithin.trans hwithin₂⟩

theorem Local.map {x : Action σ α} (h : x.Local id) (f : α → β) : (f <$> x).Local id := by
  rw [map_eq_pure_bind]
  exact h.bind fun _ a _ _ _ => local_pure (f a)

/-- A session that fails puts the row back, like all others. -/
theorem Local.session {x : Action σ α} (h : x.Local id) : (session x).Local id := by
  intro w w' hagrees
  obtain ⟨hresult, hagrees₁, hwithin⟩ := h w w' hagrees
  rw [start_session, start_session]
  generalize start x w = outcome at hresult hagrees₁ hwithin ⊢
  generalize start x w' = outcome' at hresult hagrees₁ ⊢
  obtain ⟨answer', w₁'⟩ := outcome'
  rcases outcome with ⟨failure | a, w₁⟩
  · cases hresult
    exact ⟨rfl, ⟨hagrees.table, hagrees₁.readOnly, hagrees.row, hagrees.named⟩,
      ⟨rfl, hwithin.readOnly, fun _ _ => rfl⟩⟩
  · cases hresult
    exact ⟨rfl, hagrees₁, hwithin⟩

/-- A loop of local actions is local. -/
theorem local_forIn {f : α → Action σ β} (h : ∀ a, (f a).Local id) (items : List α) :
    (forIn items PUnit.unit fun a _ => do
      let _ ← f a
      pure (ForInStep.yield PUnit.unit) : Action σ PUnit).Local id := by
  induction items with
  | nil => exact local_pure _
  | cons a rest ih =>
      rw [List.forIn_cons]
      refine Local.bind ((h a).bind fun _ _ _ _ _ => local_pure _) fun _ step _ _ _ => ?_
      cases step with
      | done _ => exact local_pure _
      | yield _ => exact ih

end Action

/-! ## The catalog -/

namespace Catalog

open PluginRegistry.Action

variable {σ α : Type} {id : String}

theorem table_of_none {w : World σ} (ht : w.table = none) (topic : Log.Topic) (what : String) :
    ∃ w₁, (table topic what : Action σ Table).start w = (.error (.catalog .noTable), w₁) ∧
      w.SameRecords w₁ := by
  unfold table
  rw [start_bind, Action.start_get]
  dsimp only
  rw [ht]
  exact ⟨_, rfl, rfl, rfl⟩

theorem local_get (timing : Timing) (id : String) :
    (get timing id : Action σ (Option Row)).Local id := by
  intro w w' hagrees
  cases ht : w.table with
  | none =>
      have ht' := hagrees.no_table ht
      obtain ⟨w₁, hstart, hsame⟩ := table_of_none ht .getFailed ("in get with key " ++ id)
      obtain ⟨w₁', hstart', hsame'⟩ := table_of_none ht' .getFailed ("in get with key " ++ id)
      unfold get
      rw [start_bind, start_bind, hstart, hstart']
      exact ⟨rfl, hagrees.of_sameRecords hsame hsame', hsame.within id⟩
  | some t =>
      obtain ⟨t', ht', hrow⟩ := hagrees.find? ht
      obtain ⟨w₁, hk, hstart⟩ := start_get ht timing id
      obtain ⟨w₁', hk', hstart'⟩ := start_get ht' timing id
      have hsame : lookup t' id = lookup t id := by rw [lookup, hrow, lookup]
      rw [hstart, hstart', hsame]
      exact ⟨rfl, hagrees.of_sameRecords hk.sameRecords hk'.sameRecords,
        hk.sameRecords.within id⟩

/-- The row that is found is that of the id, and is read with it. -/
theorem get_names {timing : Timing} {w w₁ : World σ} {row : Row} (h : w.Agrees id w)
    (hget : (get timing id).start w = (.ok (some row), w₁)) : row.id = id ∧ row.Names id := by
  cases ht : w.table with
  | none =>
      obtain ⟨w₂, hstart, _⟩ := table_of_none ht .getFailed ("in get with key " ++ id)
      unfold get at hget
      rw [start_bind, hstart] at hget
      cases hget
  | some t =>
      obtain ⟨-, hrow, -⟩ := get_eq_ok ht hget
      exact ⟨Table.id_of_find? hrow, h.named row ((World.row?_of_table ht id).trans hrow)⟩

theorem local_isReadOnly : (Action.isReadOnly : Action σ Bool).Local id := by
  intro w w' hagrees
  refine ⟨congrArg Except.ok hagrees.readOnly, hagrees, ?_⟩
  exact World.SameRecords.within ⟨rfl, rfl⟩ id

theorem local_requireOwnId (plugin : Plugin) :
    (requireOwnId id plugin : Action σ Unit).Local id := by
  unfold requireOwnId
  split
  · exact local_pure _
  · exact local_refuse _

/-- The row is changed, and is still read with its id. -/
theorem local_modify {change : Row → Row} (h : ∀ row, row.Names id → (change row).Names id) :
    (modify fun w => { w with table := w.table.map (·.modify id change) } : Action σ PUnit).Local
      id := by
  have hrow : ∀ (w : World σ) (other : String),
      World.row? { w with table := w.table.map (·.modify id change) } other =
        if other = id then (w.row? id).map fun r => { change r with id := r.id }
        else w.row? other := by
    intro w other
    cases ht : w.table with
    | none => simp [World.row?, ht]
    | some t =>
        rw [World.row?_of_table ht, World.row?_of_table ht]
        exact Table.find?_modify t id change other
  intro w w' hagrees
  refine ⟨rfl, ⟨?_, hagrees.readOnly, ?_, ?_⟩, ?_, rfl, ?_⟩
  · simp [hagrees.table]
  · rw [start_modify, start_modify]
    dsimp only
    rw [hrow, hrow, if_pos rfl, if_pos rfl, hagrees.row]
  · intro row hchanged
    rw [start_modify] at hchanged
    dsimp only at hchanged
    rw [hrow, if_pos rfl] at hchanged
    obtain ⟨old, hold, rfl⟩ := Option.map_eq_some_iff.mp hchanged
    exact h old (hagrees.named old hold)
  · simp
  · intro other hne
    rw [start_modify]
    dsimp only
    rw [hrow, if_neg hne]

theorem local_update (timing : Timing) (now : CivilTime) (id : String) (plugin : Plugin) :
    (update timing now id plugin : Action σ Plugin).Local id := by
  unfold update
  refine (local_requireOwnId plugin).bind fun _ _ _ _ hown => ?_
  obtain ⟨rfl, _⟩ := requireOwnId_eq_ok hown
  refine Local.session ((local_get timing _).bind fun _ found _ _ _ => ?_)
  split
  · exact local_refuse _
  · refine (local_ofExcept _ _).bind fun _ body _ _ hbody => ?_
    have hwrite := (start_ofExcept_eq_ok.mp hbody).1
    dsimp only
    split
    · exact local_throw_bind _ _
    · refine local_isReadOnly.bind fun _ readOnly _ _ _ => ?_
      split
      · exact local_throw_bind _ _
      · refine (local_modify fun row hrow => hrow.written hwrite now).bind fun _ _ _ _ _ => ?_
        exact local_pure _

/-- Why a row cannot be added: something in it cannot be kept, the table must not be written, or
there is one of that id. -/
def addFault? (readOnly : Bool) (found : Option Row) (row : Row) : Option CatalogFault :=
  (textFault? row.id <|> tagFault? row.service).or
    (if readOnly then some .readOnly else if found.isSome then some .repeatedId else none)

/-- A row is added, or nothing changes. -/
theorem add_start {w : World σ} {t : Table} (ht : w.table = some t) (timing : Timing) (row : Row) :
    match addFault? w.readOnly (t.find? row.id) row with
    | some fault => ∃ w₁, (add timing row).start w = (.error (.catalog fault), w₁) ∧
        w.SameRecords w₁
    | none => ∃ t' w₁, (add timing row).start w = (.ok (), w₁) ∧ t.insert? row = some t' ∧
        w₁.table = some t' ∧ w.Calm w₁ := by
  unfold add addFault?
  rw [start_bind, start_table ht]
  dsimp only
  cases hfault : (textFault? row.id <|> tagFault? row.service) with
  | some fault => exact ⟨_, rfl, rfl, rfl⟩
  | none =>
      rw [Option.none_or]
      dsimp only
      rw [start_bind, start_isReadOnly]
      dsimp only
      cases w.readOnly with
      | true => exact ⟨_, rfl, rfl, rfl⟩
      | false =>
          rw [if_neg Bool.false_ne_true, if_neg Bool.false_ne_true]
          cases hinsert : t.insert? row with
          | none =>
              have hthere : (t.find? row.id).isSome := by
                rw [Option.isSome_iff_ne_none]
                intro hnone
                have hnew := Table.find?_eq_none.mp hnone
                unfold Table.insert? at hinsert
                rw [dif_pos hnew] at hinsert
                cases hinsert
              rw [if_pos hthere]
              exact ⟨_, rfl, rfl, rfl⟩
          | some t' =>
              have hnew := (Table.insert?_eq_some hinsert row.id).1
              rw [hnew]
              obtain ⟨w₁, hk, hmeasure⟩ := measure_start timing ⟨.str "add", modelSubject, .null⟩
                { w with table := some t' }
              refine ⟨t', w₁, ?_, rfl, hk.table, (calm_replace t' w).trans hk.toCalm⟩
              dsimp only
              rw [start_bind]
              exact hmeasure

theorem local_add {row : Row} (timing : Timing) (hid : row.id = id) (hnames : row.Names id) :
    (add timing row : Action σ Unit).Local id := by
  intro w w' hagrees
  cases ht : w.table with
  | none =>
      have ht' := hagrees.no_table ht
      obtain ⟨w₁, hstart, hsame⟩ := table_of_none ht .addFailed "adding PluginInfoRecord"
      obtain ⟨w₁', hstart', hsame'⟩ := table_of_none ht' .addFailed "adding PluginInfoRecord"
      unfold add
      rw [start_bind, start_bind, hstart, hstart']
      exact ⟨rfl, hagrees.of_sameRecords hsame hsame', hsame.within id⟩
  | some t =>
      obtain ⟨t', ht', hrow⟩ := hagrees.find? ht
      have hadd := add_start ht timing row
      have hadd' := add_start ht' timing row
      rw [hid, hrow, hagrees.readOnly] at hadd'
      rw [hid] at hadd
      cases hfault : addFault? w.readOnly (t.find? id) row with
      | some fault =>
          rw [hfault] at hadd hadd'
          obtain ⟨w₁, hstart, hsame⟩ := hadd
          obtain ⟨w₁', hstart', hsame'⟩ := hadd'
          rw [hstart, hstart']
          exact ⟨rfl, hagrees.of_sameRecords hsame hsame', hsame.within id⟩
      | none =>
          rw [hfault] at hadd hadd'
          obtain ⟨u, w₁, hstart, hinsert, hu, hcalm⟩ := hadd
          obtain ⟨u', w₁', hstart', hinsert', hu', hcalm'⟩ := hadd'
          rw [hstart, hstart']
          have hafter := (Table.insert?_eq_some hinsert id).2.trans (if_pos hid)
          have hafter' := (Table.insert?_eq_some hinsert' id).2.trans (if_pos hid)
          refine ⟨rfl, hagrees.of_tables ht hu hu' hcalm hcalm' hafter hafter' ?_ ?_⟩
          · intro row' he
            exact Option.some.inj he ▸ hnames
          · intro other hne
            rw [(Table.insert?_eq_some hinsert other).2, if_neg (hid ▸ Ne.symm hne)]

theorem local_insert (timing : Timing) (now : CivilTime) (id : String) (plugin : Plugin) :
    (insert timing now id plugin : Action σ Plugin).Local id := by
  unfold insert
  refine (local_requireOwnId plugin).bind fun _ _ _ _ hown => ?_
  obtain ⟨rfl, _⟩ := requireOwnId_eq_ok hown
  refine Local.session ((local_get timing _).bind fun _ found _ _ _ => ?_)
  dsimp only
  split
  · exact local_throw_bind _ _
  · refine (local_ofExcept _ _).bind fun _ body _ _ hbody => ?_
    obtain rfl : plugin.body = body :=
      (Plugin.writeBody_eq_ok.mp (start_ofExcept_eq_ok.mp hbody).1).2.2
    have hadd : (add timing ⟨plugin.id, plugin.service, plugin.body, now, now⟩ :
        Action σ Unit).Local plugin.id :=
      local_add timing rfl fun _ hp => Plugin.id_of_read_body hp
    exact hadd.bind fun _ _ _ _ _ => local_ofExcept _ _

/-- A row is removed, or nothing changes, as the table may be written or not. -/
theorem remove_start {w : World σ} {t : Table} (ht : w.table = some t) (timing : Timing)
    (row : Row) :
    if w.readOnly then ∃ w₁, (remove timing (some row)).start w =
        (.error (.catalog .readOnly), w₁) ∧ w.SameRecords w₁
    else ∃ w₁, (remove timing (some row)).start w = (.ok (), w₁) ∧
      w₁.table = some (t.erase row.id) ∧ w.Calm w₁ := by
  unfold remove
  dsimp only
  rw [start_bind, start_table ht]
  dsimp only
  rw [start_bind, start_isReadOnly]
  dsimp only
  cases w.readOnly with
  | true => exact ⟨_, rfl, rfl, rfl⟩
  | false =>
      rw [if_neg Bool.false_ne_true, if_neg Bool.false_ne_true]
      obtain ⟨w₁, hk, hmeasure⟩ := measure_start timing ⟨.str "remove", modelSubject, .null⟩
        { w with table := some (t.erase row.id) }
      exact ⟨w₁, hmeasure, hk.table, (calm_replace _ w).trans hk.toCalm⟩

theorem local_remove {row : Row} (timing : Timing) (hid : row.id = id) :
    (remove timing (some row) : Action σ Unit).Local id := by
  intro w w' hagrees
  cases ht : w.table with
  | none =>
      have ht' := hagrees.no_table ht
      obtain ⟨w₁, hstart, hsame⟩ := table_of_none ht .removeFailed "removing PluginInfoRecord"
      obtain ⟨w₁', hstart', hsame'⟩ := table_of_none ht' .removeFailed "removing PluginInfoRecord"
      unfold remove
      dsimp only
      rw [start_bind, start_bind, hstart, hstart']
      exact ⟨rfl, hagrees.of_sameRecords hsame hsame', hsame.within id⟩
  | some t =>
      obtain ⟨t', ht', _⟩ := hagrees.find? ht
      have hremove := remove_start ht timing row
      have hremove' := remove_start ht' timing row
      rw [hagrees.readOnly] at hremove'
      split at hremove
      · rename_i hreadOnly
        rw [if_pos hreadOnly] at hremove'
        obtain ⟨w₁, hstart, hsame⟩ := hremove
        obtain ⟨w₁', hstart', hsame'⟩ := hremove'
        rw [hstart, hstart']
        exact ⟨rfl, hagrees.of_sameRecords hsame hsame', hsame.within id⟩
      · rename_i hwritable
        rw [if_neg hwritable] at hremove'
        obtain ⟨w₁, hstart, hu, hcalm⟩ := hremove
        obtain ⟨w₁', hstart', hu', hcalm'⟩ := hremove'
        rw [hstart, hstart']
        rw [hid] at hu hu'
        have hafter := (Table.find?_erase t id id).trans (if_pos rfl)
        have hafter' := (Table.find?_erase t' id id).trans (if_pos rfl)
        refine ⟨rfl, hagrees.of_tables ht hu hu' hcalm hcalm' hafter hafter' ?_ ?_⟩
        · intro row' h
          cases h
        · intro other hne
          exact (Table.find?_erase t id other).trans (if_neg hne)

theorem local_delete (timing : Timing) (id : String) :
    (delete timing id : Action σ Unit).Local id := by
  refine Local.session ((local_get timing id).bind fun w found w₁ hagrees hget => ?_)
  cases found with
  | none => exact local_pure _
  | some row => exact local_remove timing (get_names hagrees hget).1

theorem local_byId? (timing : Timing) (id : String) :
    (byId? timing id : Action σ (Option Plugin)).Local id := by
  refine Local.session ((local_get timing id).bind fun _ found _ _ _ => ?_)
  cases found with
  | none => exact local_pure _
  | some row => exact (local_ofExcept _ _).bind fun _ _ _ _ _ => local_pure _

theorem local_byId (timing : Timing) (id : String) :
    (byId timing id : Action σ Plugin).Local id := by
  refine (local_byId? timing id).bind fun _ found _ _ _ => ?_
  cases found with
  | none => exact local_refuse _
  | some p => exact local_pure _

/-- The record that is found has the id. -/
theorem id_of_byId {timing : Timing} {w w₁ : World σ} {p : Plugin} (h : w.Agrees id w)
    (hfind : (byId timing id).start w = (.ok p, w₁)) : p.id = id := by
  unfold byId byId? at hfind
  obtain ⟨found, w₂, hfound, hfind⟩ := start_bind_eq_ok.mp hfind
  obtain ⟨row?, w₃, hget, hrecord⟩ := start_bind_eq_ok.mp (start_session_eq_ok.mp hfound)
  cases row? with
  | none =>
      cases hrecord
      cases hfind
  | some row =>
      obtain ⟨q, w₄, hq, hpure⟩ := start_bind_eq_ok.mp hrecord
      cases hpure
      cases hfind
      exact (get_names h hget).2.ofRow (start_ofExcept_eq_ok.mp hq).1

end Catalog

end PluginRegistry
