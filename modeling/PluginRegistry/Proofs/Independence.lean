import PluginRegistry.Proofs.AcceptedRecords
import PluginRegistry.Proofs.Locality

/-!
# Plugins do not depend on one another

Each operation that changes a record works on one row, as long as it is settled who acts. So two of
them that name different plugins can change places: each answers what it answers alone, and the
records that are there in the end are the same. The log is not, for it tells what came first; and a
resolver that answers by turns would name the users by turns, which is why the actors have to be
settled. A store of artifacts makes no difference, since what it does decides no answer.
-/

namespace PluginRegistry

/-! ## Listing what is in the table -/

namespace Catalog

open PluginRegistry.Action

variable {σ : Type}

/-- Rows are read in the same way in any state, and nothing changes. -/
theorem start_mapM_recordOf (rows : List Row) (w : World σ) :
    (rows.mapM recordOf).start w = ((rows.mapM Plugin.ofRow).mapError .rejected, w) := by
  induction rows with
  | nil => rfl
  | cons row rest ih =>
      rw [List.mapM_cons, start_bind, List.mapM_cons]
      unfold recordOf
      cases Plugin.ofRow row with
      | error rejection => rfl
      | ok p =>
          show start (rest.mapM recordOf >>= _) w = _
          rw [start_bind, ih]
          cases rest.mapM Plugin.ofRow with
          | error rejection => rfl
          | ok plugins => rfl

end Catalog

namespace Registry

open PluginRegistry.Action

variable {σ : Type} {id : String}

/-! ## The operations on one record -/

/-- Who acts does not depend on how often somebody was asked. -/
def Settles (r : Registry σ) (user : Option String) : Prop :=
  ∀ asked, r.actorAt user asked = r.actorAt user 0

/-- Whoever is named acts. -/
theorem settles_of_named (r : Registry σ) {name : String} (h : name ≠ "") :
    r.Settles (some name) := by
  intro asked
  unfold actorAt Identity.choose
  simp [h, Option.filter]

theorem local_actor {r : Registry σ} {user : Option String} (h : r.Settles user) :
    (r.actor user).Local id := by
  have hanswer : ∀ w : World σ, (start (r.actor user) w).1 = .ok (r.actorAt user 0) ∧
      w.SameRecords (start (r.actor user) w).2 := by
    intro w
    obtain ⟨name, w₁, hk, hstart⟩ := (total_actor r user).of_keeps (keeps_actor r user) w
    rw [hstart, actor_eq_ok hstart, h w.asked]
    exact ⟨rfl, hk.sameRecords⟩
  exact local_of_sameRecords hanswer

theorem local_requireCopy (canCopy : Bool) : (requireCopy canCopy : Action σ Unit).Local id := by
  unfold requireCopy
  split
  · exact local_pure _
  · exact local_throw _

theorem local_validate (r : Registry σ) (plugin : Plugin) : (r.validate plugin).Local id := by
  unfold validate
  dsimp only
  split
  · exact local_pure _
  · exact (local_note _ _).bind fun _ _ _ _ _ => local_refuse _

theorem local_upsert (r : Registry σ) (now : CivilTime) (plugin : Plugin) :
    (r.upsert now plugin).Local plugin.id := by
  refine (local_requireCopy _).bind fun _ _ _ _ _ => ?_
  refine (Catalog.local_byId? r.timing plugin.id).bind fun _ found _ _ _ => ?_
  cases found with
  | none =>
      refine (local_validate r _).bind fun _ _ _ _ _ => ?_
      refine (Catalog.local_insert r.timing now plugin.id _).bind fun _ _ _ _ _ => ?_
      exact (local_note _ _).bind fun _ _ _ _ _ => local_pure _
  | some current =>
      dsimp only
      split
      · exact local_throw_bind _ _
      · refine (local_validate r _).bind fun _ _ _ _ _ => ?_
        refine (Catalog.local_update r.timing now plugin.id _).bind fun _ _ _ _ _ => ?_
        exact (local_note _ _).bind fun _ _ _ _ _ => local_pure _

/-- A record that was found is written under the id that it was found by. -/
theorem local_update_found {timing : Timing} {now : CivilTime} {w w₁ : World σ} {p q : Plugin}
    (h : w.Agrees id w) (hfind : (Catalog.byId timing id).start w = (.ok p, w₁))
    (hid : q.id = p.id) : (Catalog.update timing now q.id q : Action σ Plugin).Local id := by
  obtain rfl : q.id = id := hid.trans (Catalog.id_of_byId h hfind)
  exact Catalog.local_update timing now q.id q

/-- Whatever the store does, an attempt to remove an artifact goes through. -/
theorem local_deleteArtifact (r : Registry σ) (plugin : String) (version : Json) :
    (r.deleteArtifact plugin version).Local id := by
  have hanswer : ∀ w : World σ, (start (r.deleteArtifact plugin version) w).1 = .ok () ∧
      w.SameRecords (start (r.deleteArtifact plugin version) w).2 := by
    intro w
    obtain ⟨_, w₁, hstart⟩ := total_deleteArtifact r plugin version w
    have hsame := (deleteArtifact_start r plugin version w).1
    rw [hstart] at hsame ⊢
    exact ⟨rfl, hsame⟩
  exact local_of_sameRecords hanswer

theorem local_dropReleases {r : Registry σ} (now : CivilTime) (id : String) (version : Json)
    {change : Plugin → Plugin} {user : Option String} (hchange : ∀ p, (change p).id = p.id)
    (huser : r.Settles user) :
    (r.dropReleases now id version change user).Local id := by
  refine (Catalog.local_byId r.timing id).bind fun w p w₁ hagrees hfind => ?_
  refine (local_update_found hagrees hfind (hchange p)).bind fun _ _ _ _ _ => ?_
  refine (local_actor huser).bind fun _ _ _ _ _ => ?_
  refine (local_note _ _).bind fun _ _ _ _ _ => ?_
  exact (local_deleteArtifact r id version).bind fun _ _ _ _ _ => local_pure _

theorem local_deleteRelease {r : Registry σ} (now : CivilTime) (id version : String)
    {user : Option String} (huser : r.Settles user) :
    (r.deleteRelease now id version user).Local id :=
  local_dropReleases now id _ (fun _ => rfl) huser

/-- What follows once a record that is to be removed was found: its releases go, then the record. -/
def deleteFound (r : Registry σ) (now : CivilTime) (id : String) (user : Option String)
    (releases : List Release) : Action σ Unit := do
  for release in releases do
    let _ ← r.deleteRelease now id release.version user
  Catalog.delete r.timing id
  audit .pluginDeleted "delete" (← r.actor user) id .null

theorem deleteFound_cons (r : Registry σ) (now : CivilTime) (id : String) (user : Option String)
    (release : Release) (rest : List Release) :
    r.deleteFound now id user (release :: rest) = (do
      let _ ← r.deleteRelease now id release.version user
      r.deleteFound now id user rest) := by
  unfold deleteFound
  rw [List.forIn_cons]
  simp only [bind_assoc, pure_bind]

theorem local_deleteFound {r : Registry σ} (now : CivilTime) (id : String) {user : Option String}
    (huser : r.Settles user) (releases : List Release) :
    (r.deleteFound now id user releases).Local id := by
  have hloop := local_forIn (fun release : Release =>
    local_deleteRelease now id release.version huser) releases
  refine hloop.bind fun _ _ _ _ _ => ?_
  refine (Catalog.local_delete r.timing id).bind fun _ _ _ _ _ => ?_
  exact (local_actor huser).bind fun _ _ _ _ _ => local_note _ _

theorem local_delete {r : Registry σ} (now : CivilTime) (id : String) {user : Option String}
    (huser : r.Settles user) : (r.delete now id user).Local id := by
  refine (Catalog.local_byId? r.timing id).bind fun _ found _ _ _ => ?_
  cases found with
  | none => exact local_pure _
  | some p => exact local_deleteFound now id huser p.releases

theorem local_createRelease {r : Registry σ} (now : CivilTime) (id : String) (release : Release)
    {user : Option String} (huser : r.Settles user) :
    (r.createRelease now id release user).Local id := by
  refine (local_actor huser).bind fun _ _ _ _ _ => ?_
  refine (local_requireCopy _).bind fun _ _ _ _ _ => ?_
  refine (Catalog.local_byId r.timing id).bind fun w p w₁ hagrees hfind => ?_
  refine (local_validate r _).bind fun _ _ _ _ _ => ?_
  refine Local.bind (local_update_found hagrees hfind ?_) fun _ _ _ _ _ => ?_
  · rfl
  · exact (local_note _ _).bind fun _ _ _ _ _ => local_pure _

theorem local_upsertRelease {r : Registry σ} (now : CivilTime) (id : String) (release : Release)
    {user : Option String} (huser : r.Settles user) :
    (r.upsertRelease now id release user).Local id := by
  refine (local_actor huser).bind fun _ _ _ _ _ => ?_
  refine (local_requireCopy _).bind fun _ _ _ _ _ => ?_
  refine (Catalog.local_byId r.timing id).bind fun w p w₁ hagrees hfind => ?_
  dsimp only
  split
  · exact local_throw_bind _ _
  · refine (local_validate r _).bind fun _ _ _ _ _ => ?_
    refine Local.bind (local_update_found hagrees hfind ?_) fun _ _ _ _ _ => ?_
    · rfl
    · exact (local_note _ _).bind fun _ _ _ _ _ => local_pure _

theorem local_preferRelease {r : Registry σ} (now : CivilTime) (id version : String)
    (preference : Json) {user : Option String} (huser : r.Settles user) :
    (r.preferRelease now id version preference user).Local id := by
  refine (Catalog.local_byId r.timing id).bind fun w p w₁ hagrees hfind => ?_
  dsimp only
  split
  · exact local_refuse _
  · refine (local_actor huser).bind fun _ _ _ _ _ => ?_
    refine Local.bind (local_update_found hagrees hfind ?_) fun _ _ _ _ _ => ?_
    · rfl
    · exact (local_note _ _).bind fun _ _ _ _ _ => local_pure _

theorem local_preferNoRelease (r : Registry σ) (id : String) (version : Json) :
    (r.preferNoRelease id version).Local id :=
  (Catalog.local_byId r.timing id).bind fun _ _ _ _ _ => local_refuse _

/-- It is settled who acts in the operation. Nobody acts when a record is upserted. -/
def SettlesActor (r : Registry σ) : Operation → Prop
  | .upsert _ => True
  | op => r.Settles op.user?

/-- An operation that changes the record of an id works on its row. -/
theorem local_perform {r : Registry σ} (now : CivilTime) {op : Operation}
    (htarget : op.target? = some id) (hactor : r.SettlesActor op) :
    (r.perform now op).Local id := by
  cases op with
  | findAll => cases htarget
  | findByService service => cases htarget
  | find id => cases htarget
  | validate plugin => cases htarget
  | upsert candidate =>
      cases htarget
      exact (local_upsert r now candidate).map _
  | delete id user =>
      cases htarget
      exact (local_delete now id hactor).map _
  | createRelease id release user =>
      cases htarget
      exact (local_createRelease now id release hactor).map _
  | upsertRelease id release user =>
      cases htarget
      exact (local_upsertRelease now id release hactor).map _
  | deleteRelease id version user =>
      cases htarget
      cases version with
      | str version => exact (local_deleteRelease now id version hactor).map _
      | _ => exact (local_dropReleases now id _ (fun _ => rfl) hactor).map _
  | preferRelease id version preference user =>
      cases htarget
      cases version with
      | str version => exact (local_preferRelease now id version preference hactor).map _
      | _ => exact (local_preferNoRelease r id _).map _

/-! ## Two operations on different records -/

/-- What is listed depends on the table only. -/
theorem findAll_of_sameTable (r : Registry σ) {w w' : World σ} {t : Table} (ht : w.table = some t)
    (ht' : w'.table = some t) : (r.findAll.start w').1 = (r.findAll.start w).1 := by
  have hlist : ∀ {v : World σ}, v.table = some t →
      (r.findAll.start v).1 = (t.rows.mapM Plugin.ofRow).mapError .rejected := by
    intro v hv
    obtain ⟨v₁, _, hfound⟩ := Catalog.findMany_of_table hv r.timing
    unfold findAll Catalog.all
    rw [start_session, start_bind, hfound]
    dsimp only
    rw [Catalog.start_mapM_recordOf]
    cases t.rows.mapM Plugin.ofRow with
    | error rejection => rfl
    | ok plugins => rfl
  rw [hlist ht, hlist ht']

/-- Local actions on different rows can change places: they answer the same in either order, and
leave the same table. -/
theorem local_commute {α β : Type} {x : Action σ α} {y : Action σ β} {i j : String}
    (hx : x.Local i) (hy : y.Local j) (hne : i ≠ j) {w : World σ} (hs : w.Sound) :
    (x.start (y.start w).2).1 = (x.start w).1 ∧ (y.start (x.start w).2).1 = (y.start w).1 ∧
      ∃ t, (y.start (x.start w).2).2.table = some t ∧ (x.start (y.start w).2).2.table = some t := by
  have hi : w.Agrees i w := .refl_of_sound hs i
  have hj : w.Agrees j w := .refl_of_sound hs j
  -- each of them alone leaves the row of the other as it is
  have hwithin : w.Within i (x.start w).2 := (hx w w hi).2.2
  have hwithin' : w.Within j (y.start w).2 := (hy w w hj).2.2
  have hafter := hi.of_within hne hwithin'
  have hafter' := hj.of_within hne.symm hwithin
  obtain ⟨hresult, hrow, _⟩ := hx w _ hafter
  obtain ⟨hresult', hrow', _⟩ := hy w _ hafter'
  refine ⟨hresult, hresult', ?_⟩
  -- and so it does after the other one
  have hlast : (y.start w).2.Within i (x.start (y.start w).2).2 := (hx _ _ hafter.right).2.2
  have hlast' : (x.start w).2.Within j (y.start (x.start w).2).2 := (hy _ _ hafter'.right).2.2
  obtain ⟨t, ht⟩ := hs.table
  have hisSome : w.table.isSome := by
    rw [ht]
    rfl
  obtain ⟨u, hu⟩ := Option.isSome_iff_exists.mp
    ((hlast'.table.trans hwithin.table).trans hisSome)
  obtain ⟨u', hu'⟩ := Option.isSome_iff_exists.mp
    ((hlast.table.trans hwithin'.table).trans hisSome)
  refine ⟨u, hu, hu'.trans (congrArg some (Table.eq_of_find? fun id => ?_))⟩
  rw [← World.row?_of_table hu, ← World.row?_of_table hu']
  by_cases hidi : id = i
  · rw [hidi, hrow.row, hlast'.others i hne]
  · by_cases hidj : id = j
    · rw [hidj, hlast.others j hne.symm, hrow'.row]
    · rw [hlast.others id hidi, hwithin'.others id hidj, hlast'.others id hidj,
        hwithin.others id hidi]

/-- **Operations on different plugins can change places.** Each gives the same result or the same
failure in either order, and what is listed in the end is the same. The state may have been reached
with other validators and another store. -/
theorem mutations_commute (r₀ r : Registry σ) {w : World σ} (hw : r₀.Reached w) {c₁ c₂ : Call}
    {i j : String} (hi : c₁.operation.target? = some i) (hj : c₂.operation.target? = some j)
    (hne : i ≠ j) (hactor₁ : r.SettlesActor c₁.operation)
    (hactor₂ : r.SettlesActor c₂.operation) :
    (r.answer c₁ (r.answer c₂ w).2).1 = (r.answer c₁ w).1 ∧
    (r.answer c₂ (r.answer c₁ w).2).1 = (r.answer c₂ w).1 ∧
    (r.findAll.start (r.answer c₂ (r.answer c₁ w).2).2).1 =
      (r.findAll.start (r.answer c₁ (r.answer c₂ w).2).2).1 := by
  obtain ⟨hresult, hresult', t, ht, ht'⟩ :=
    local_commute (local_perform c₁.now hi hactor₁) (local_perform c₂.now hj hactor₂)
      hne hw.sound
  exact ⟨hresult, hresult', r.findAll_of_sameTable ht' ht⟩

/-- A registry whose resolver names somebody only once. -/
def forgetful : Registry Unit :=
  { plain none with resolver := some (Identity.scripted [some "carol"]) }

/-- What it holds once two plugins were made. -/
def pair : World Unit :=
  forgetful.run [⟨.early 0, .upsert (.bare "acme.a" [.bare "1.0.0" false])⟩,
    ⟨.early 1, .upsert (.bare "acme.b" [.bare "1.0.0" false])⟩] (.blank ())

/-- One plugin is given a version that it has, another is removed. The first call fails and the
second succeeds in either order. -/
theorem mutations_commute_pair :
    let clash : Call :=
      ⟨.early 2, .createRelease "acme.a" (.bare "1.0.0" false) (some "alice")⟩
    let removal : Call := ⟨.early 3, .delete "acme.b" (some "bob")⟩
    (forgetful.answer clash (forgetful.answer removal pair).2).1 = (forgetful.answer clash pair).1 ∧
    (forgetful.answer clash pair).1.isOk = false ∧
    (forgetful.answer removal (forgetful.answer clash pair).2).1 =
      (forgetful.answer removal pair).1 ∧
    (forgetful.answer removal pair).1.isOk = true ∧
    (forgetful.findAll.start (forgetful.answer removal (forgetful.answer clash pair).2).2).1 =
      (forgetful.findAll.start (forgetful.answer clash (forgetful.answer removal pair).2).2).1 := by
  intro clash removal
  have hreached : forgetful.Reached pair := by
    refine Reached.run (.empty ⟨rfl, rfl⟩) ?_
    decide
  obtain ⟨hclash, hremoval, hlisted⟩ := mutations_commute forgetful forgetful hreached
    (show clash.operation.target? = some "acme.a" from rfl)
    (show removal.operation.target? = some "acme.b" from rfl) (by decide)
    (forgetful.settles_of_named (by decide)) (forgetful.settles_of_named (by decide))
  exact ⟨hclash, by decide +kernel, hremoval, by decide +kernel, hlisted⟩

end Registry

end PluginRegistry
