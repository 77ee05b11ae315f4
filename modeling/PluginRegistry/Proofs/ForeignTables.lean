import PluginRegistry.Proofs.Independence
import PluginRegistry.Proofs.Likeness

/-!
# Tables that others wrote

Whatever a table holds, an operation that fails has changed nothing, and for all operations but one
this is so because they write once. Removing a record writes once for each release, so here it takes
an argument: the first release either cannot be removed, and nothing has changed, or the record is
written anew by that, and from then on its row is one that the registry itself might have written.
Such a row is removed without fail. The other rows have no part in this, so it does not matter what
they hold.

The argument needs the record to be written over the row that it was read from. A row whose body
names another plugin is the exception: its releases are removed from a record elsewhere.
-/

namespace PluginRegistry

/-! ## A body without some of its releases -/

theorem Schema.length_itemsFrom {α : Type} {read : Document → Schema.Checked α} {items : List Json}
    {index : Nat} {values : List α}
    (h : Checked.all (itemsFrom read index (Json.toDocuments items)) = .ok values) :
    values.length = items.length := by
  induction items generalizing index values with
  | nil =>
      cases h
      rfl
  | cons item rest ih =>
      rw [Json.toDocuments, itemsFrom, Checked.all] at h
      obtain ⟨_, tail, hhead, htail, rfl⟩ := Checked.apply_eq_ok h
      obtain ⟨head, _, rfl⟩ := Checked.map_eq_ok hhead
      exact congrArg (· + 1) (ih htail)

/-- A body that has as many releases as a record is not alike to one that lacks some of them. -/
theorem Plugin.not_alike_drop {stored : Json} {p q : Plugin} {version : String}
    (hread : read stored.toDocument = .ok p) (hq : q.releases = p.releases)
    (hversion : version ∈ p.versions) : (q.drop version).body.alike stored = false := by
  by_contra halike
  rw [Bool.not_eq_false] at halike
  obtain ⟨members, rfl, -⟩ := ofDocument_eq_ok (read_eq_ok hread)
  have hmember : ("releases", Json.arr ((q.drop version).releases.map Release.toJson))
      ∈ (q.drop version).bodyMembers ++ (q.drop version).bodyExtras.payload :=
    List.mem_append_left _ (List.mem_of_getElem? (i := 4) rfl)
  obtain ⟨other, hother, hreleases⟩ := Json.alike_member halike hmember
  -- the releases of the record were read from this member
  have hparts := (parts_of_ofDocument (read_eq_ok hread)).2.1
  have hfound : (⟨"releases", "releases"⟩ : Schema.Field).find? (Json.toEntries members)
      = some ("releases", other.toDocument) := Schema.find?_of_lookup hother
  unfold Schema.optional at hparts
  rw [hfound] at hparts
  have hlist := Schema.Checked.within_eq_ok.mp hparts
  cases other with
  | arr items =>
      have hlength : (q.drop version).releases.length = p.releases.length := by
        have hsame := (Json.alike_items hreleases).length_eq
        rw [List.length_map] at hsame
        exact hsame.trans (Schema.length_itemsFrom hlist).symm
      obtain ⟨r, hr, hrversion⟩ := mem_versions.mp hversion
      have hkept := List.length_filter_eq_length_iff.mp (hq ▸ hlength) r (hq ▸ hr)
      simp [hrversion] at hkept
  | _ => cases hlist

/-! ## Rows that were written anew -/

namespace Registry

open PluginRegistry.Action

variable {σ : Type} {id : String}

/-- **A record in a row that the registry writes is removed without fail**, whatever the other
rows hold. -/
theorem deleteFound_of_holds {r : Registry σ} (now : CivilTime) {user : Option String}
    (huser : r.Settles user) (releases : List Release) {w : World σ}
    (hwritable : w.readOnly = false) {row : Row} (hrow : w.row? id = some row) {p : Plugin}
    (hp : row.Holds p) :
    (start (r.deleteFound now id user releases) w).1 = .ok () := by
  have hid := World.id_of_row? hrow
  obtain ⟨t, ht, -⟩ := Option.bind_eq_some_iff.mp hrow
  -- with this row alone the state is sound
  let alone : World σ := { w with table := some ⟨[row], List.pairwise_singleton _ _⟩ }
  have hfind : ∀ id', alone.row? id' = if row.id = id' then some row else none := by
    intro id'
    show ([row].find? fun r => decide (r.id = id')) = _
    by_cases h : row.id = id'
    · simp [h]
    · simp [h]
  have hsound : alone.Sound := by
    refine ⟨⟨_, rfl⟩, hwritable, fun id' row' hrow' => ?_⟩
    rw [hfind] at hrow'
    split at hrow'
    · cases hrow'
      exact ⟨p, hp⟩
    · cases hrow'
  have hthere : alone.row? id = some row := (hfind id).trans (if_pos hid)
  have hagrees : alone.Agrees id w := by
    refine ⟨?_, rfl, hrow.trans hthere.symm, (World.Agrees.refl_of_sound hsound id).named⟩
    rw [ht]
    rfl
  rw [(local_deleteFound now id huser releases alone w hagrees).1]
  obtain ⟨w₁, hloop, hs₁, ⟨row₁, hrow₁⟩, -⟩ :=
    deleteReleases_of_row r now user releases hsound ⟨row, hthere⟩
  obtain ⟨t₁, ht₁⟩ := hs₁.table
  have hoctets := hs₁.textFault?_of_row hrow₁
  rw [World.row?_of_table ht₁] at hrow₁
  obtain ⟨w₂, hdelete, -⟩ := Catalog.delete_of_row ht₁ r.timing hoctets hrow₁ hs₁.writable
  obtain ⟨actor, w₃, hactor⟩ := total_actor r user w₂
  unfold deleteFound
  rw [start_bind, hloop]
  dsimp only
  rw [start_bind, hdelete]
  dsimp only
  rw [start_bind, hactor]
  rfl

/-- A record that was found is that of its row. -/
theorem row_of_byId? {timing : Timing} {w w' : World σ} {t : Table} (ht : w.table = some t)
    {found : Plugin} (h : (Catalog.byId? timing id).start w = (.ok (some found), w')) :
    ∃ row p, t.find? id = some row ∧ Plugin.read row.body.toDocument = .ok p ∧
      found = p.timed row := by
  unfold Catalog.byId? at h
  rw [start_session_eq_ok, start_bind_eq_ok] at h
  obtain ⟨row?, w₁, hget, h⟩ := h
  obtain ⟨-, hrow, -⟩ := Catalog.get_eq_ok ht hget
  cases row? with
  | none => cases h
  | some row =>
      obtain ⟨q, w₂, hrecord, h⟩ := start_bind_eq_ok.mp h
      cases h
      obtain ⟨hofRow, -⟩ := start_ofExcept_eq_ok.mp hrecord
      unfold Plugin.ofRow at hofRow
      cases hread : Plugin.read row.body.toDocument with
      | error rejection =>
          rw [hread] at hofRow
          cases hofRow
      | ok p =>
          rw [hread] at hofRow
          cases hofRow
          exact ⟨row, p, hrow, hread, rfl⟩

/-- A release that was removed leaves a row that the registry might have written itself. -/
theorem holds_of_deleteRelease {r : Registry σ} {now : CivilTime} {version : String}
    {user : Option String} {w w' : World σ} {t : Table} (ht : w.table = some t) {row : Row}
    {p answer : Plugin} (hrow : t.find? id = some row)
    (hread : Plugin.read row.body.toDocument = .ok p) (hid : p.id = id)
    (hversion : version ∈ p.versions)
    (h : (r.deleteRelease now id version user).start w = (.ok answer, w')) :
    ∃ row' q, w'.row? id = some row' ∧ row'.Holds q ∧ w'.readOnly = false := by
  unfold deleteRelease dropReleases at h
  obtain ⟨found, w₁, hfind, h⟩ := start_bind_eq_ok.mp h
  have ht₁ := ((Catalog.keeps_byId _ _).of_start hfind).table.trans ht
  obtain rfl : found = p.timed row := by
    unfold find Catalog.byId at hfind
    obtain ⟨found?, w₂, hbyId, hfind⟩ := start_bind_eq_ok.mp hfind
    cases found? with
    | none => cases hfind
    | some found =>
        obtain ⟨row', p', hrow', hread', rfl⟩ := row_of_byId? ht hbyId
        cases hrow.symm.trans hrow'
        cases hread.symm.trans hread'
        cases hfind
        rfl
  obtain ⟨written, w₂, hupdate, h⟩ := start_bind_eq_ok.mp h
  -- the audit and the attempt to remove the artifact leave the records alone
  obtain ⟨actor, w₃, hactor, h⟩ := start_bind_eq_ok.mp h
  obtain ⟨_, w₄, haudit, h⟩ := start_bind_eq_ok.mp h
  obtain ⟨_, w₅, hartifact, h⟩ := start_bind_eq_ok.mp h
  have hsame : w₂.SameRecords w₅ := by
    have hactor' := ((keeps_actor r user).of_start hactor).sameRecords
    have haudit' : w₃.SameRecords w₄ := by
      cases haudit
      exact ⟨rfl, rfl⟩
    have hartifact' := (deleteArtifact_start r id (.str version) w₄).1
    rw [hartifact] at hartifact'
    exact hactor'.trans (haudit'.trans hartifact')
  cases h
  obtain ⟨row', body, -, hrow', hbody, htag, hwritable, ht₂, hcalm, -⟩ :=
    Catalog.update_eq_ok ht₁ hupdate
  obtain rfl : row' = row := Option.some.inj (hrow'.symm.trans (hid.symm ▸ hrow))
  -- a release is missing from the new body, so the old one does not stay
  have hnew : body.alike row'.body = false := by
    rw [← (Plugin.writeBody_eq_ok.mp hbody).2.2]
    exact Plugin.not_alike_drop hread rfl hversion
  have hwf : (p.timed row').WellFormed :=
    have hp := Plugin.wellFormed_of_read hread
    ⟨hp.named, hp.encoded, hp.releases, hp.undeclared⟩
  refine ⟨Catalog.written now ((p.timed row').drop version) body row',
    ((p.timed row').drop version).restored, ?_, ?_, ?_⟩
  · have hplugin : ((p.timed row').drop version).id = id := hid
    rw [hsame.row?, World.row?_of_table ht₂, Table.find?_modify, hplugin, if_pos rfl, hrow]
    rfl
  · refine Row.holds_made (hwf.drop version) hbody htag ?_ ?_
    · exact (Table.id_of_find? hrow).trans hid.symm
    · unfold Catalog.written
      rw [hnew]
      rfl
  · rw [hsame.readOnly, hcalm.readOnly, hwritable]

/-- A record that could not be removed is as it was, unless its row has the record of another
plugin. -/
theorem kept_of_delete {r : Registry σ} {now : CivilTime} {user : Option String}
    (huser : r.Settles user) {w w' : World σ} {t : Table} (ht : w.table = some t)
    {failure : Failure} (h : (r.delete now id user).start w = (.error failure, w')) :
    w.Kept w' ∨ ∃ row, t.find? id = some row ∧ ¬row.Names id := by
  unfold delete at h
  rcases start_bind_eq_error.mp h with h | ⟨found, w₁, hbyId, h⟩
  · exact .inl ((Catalog.keeps_byId? _ _).of_start h)
  have hk := (Catalog.keeps_byId? _ _).of_start hbyId
  cases found with
  | none => cases h
  | some found =>
      obtain ⟨row, p, hrow, hread, rfl⟩ := row_of_byId? ht hbyId
      by_cases hid : p.id = id
      · refine .inl (hk.trans ?_)
        change (r.deleteFound now id user p.releases).start w₁ = _ at h
        cases hreleases : p.releases with
        | nil =>
            -- only the row goes, and this is undone if it fails
            rw [hreleases] at h
            rcases start_bind_eq_error.mp h with h | ⟨_, w₂, hloop, h⟩
            · cases h
            cases hloop
            have hatomic := (Catalog.delete_calm_and_atomic (σ := σ) r.timing id).2
            exact hatomic.bind_total (fun _ => (total_actor r user).bind fun _ =>
              total_audit _ _ _ _ _) _ _ _ h
        | cons release rest =>
            rw [hreleases, deleteFound_cons] at h
            rcases start_bind_eq_error.mp h with h | ⟨answer, w₂, hfirst, h⟩
            · exact atomic_dropReleases _ _ _ _ _ _ _ _ _ h
            -- past the first release nothing fails
            have hversion : release.version ∈ p.versions :=
              Plugin.mem_versions.mpr ⟨release, hreleases ▸ List.mem_cons_self, rfl⟩
            obtain ⟨row', q, hrow', hq, hwritable⟩ :=
              holds_of_deleteRelease (hk.table.trans ht) hrow hread hid hversion hfirst
            have hok := deleteFound_of_holds now huser rest hwritable hrow' hq
            rw [h] at hok
            cases hok
      · exact .inr ⟨row, hrow, fun hnames => hid (hnames p hread)⟩

/-- **An operation that fails has changed nothing, whatever is in the table**, unless it is to
remove a record whose row has that of another plugin. -/
theorem kept_of_failure {r : Registry σ} {now : CivilTime} {op : Operation}
    (hactor : r.SettlesActor op) {w w' : World σ} {t : Table} (ht : w.table = some t)
    {failure : Failure} (h : (r.perform now op).start w = (.error failure, w')) :
    w.Kept w' ∨ ∃ id user row, op = .delete id user ∧ t.find? id = some row ∧ ¬row.Names id := by
  cases op with
  | delete id user =>
      unfold perform at h
      rw [map_eq_pure_bind] at h
      rcases start_bind_eq_error.mp h with h | ⟨_, _, _, h⟩
      · rcases kept_of_delete hactor ht h with hk | ⟨row, hrow, hnames⟩
        · exact .inl hk
        · exact .inr ⟨id, user, row, rfl, hrow, hnames⟩
      · cases h
  | _ => exact .inl (atomic_perform r now (fun _ _ h => by cases h) w failure w' h)

end Registry

end PluginRegistry
