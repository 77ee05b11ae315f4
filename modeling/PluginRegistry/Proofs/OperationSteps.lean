import PluginRegistry.Proofs.Independence

/-!
# The steps that operations are made of

An operation reads, writes one row of the table at a time, and tries to remove artifacts. Whatever
each of these steps keeps up is kept up by each operation, on any state and however it ends. Two
things are: there is a table as long as there was one, and one that must not be written is left
alone.
-/

namespace PluginRegistry

open PluginRegistry.Action

variable {σ : Type}

/-- A relation between states that is kept up by each step of an operation. -/
structure Registry.KeepsUp (r : Registry σ) (R : World σ → World σ → Prop) : Prop where
  /-- It is kept up by one step after the other. -/
  trans : ∀ {w₁ w₂ w₃}, R w₁ w₂ → R w₂ w₃ → R w₁ w₃
  /-- What only reads keeps it up, or what has failed and was undone. -/
  kept : ∀ {w w'}, w.Kept w' → R w w'
  /-- An entry in the log keeps it up. -/
  note : ∀ topic message w, R w (start (note topic message) w).2
  /-- So does making a record. -/
  insert : ∀ now id p w, R w (start (Catalog.insert r.timing now id p) w).2
  /-- So does writing one over. -/
  update : ∀ now id p w, R w (start (Catalog.update r.timing now id p) w).2
  /-- So does removing one. -/
  delete : ∀ id w, R w (start (Catalog.delete r.timing id) w).2
  /-- So does the attempt to remove an artifact. -/
  artifact : ∀ id version w, R w (start (r.deleteArtifact id version) w).2

namespace Registry

variable {r : Registry σ} {R : World σ → World σ → Prop}

theorem KeepsUp.bind {α β : Type} (h : r.KeepsUp R) {x : Action σ α} {f : α → Action σ β}
    (hx : ∀ w, R w (start x w).2) (hf : ∀ a w, R w (start (f a) w).2) (w : World σ) :
    R w (start (x >>= f) w).2 :=
  bind_of_trans (R := R) h.trans hx hf w

theorem KeepsUp.keeps {α : Type} (h : r.KeepsUp R) {x : Action σ α} (hx : x.Keeps) (w : World σ) :
    R w (start x w).2 := h.kept (hx w)

/-- Once a record is written an entry is made in the log. -/
theorem KeepsUp.noted {α : Type} (h : r.KeepsUp R) {topic : Log.Topic} {message : String} (a : α)
    (w : World σ) : R w (start (Action.note topic message >>= fun _ => pure a) w).2 :=
  h.bind (h.note topic message) (fun _ => h.keeps (keeps_pure a)) w

theorem KeepsUp.upsert (h : r.KeepsUp R) (now : CivilTime) (plugin : Plugin) :
    ∀ w, R w (start (r.upsert now plugin) w).2 := by
  refine h.bind (h.keeps (keeps_requireCopy _)) fun _ => ?_
  refine h.bind (h.keeps (Catalog.keeps_byId? _ _)) fun found => ?_
  cases found with
  | none =>
      refine h.bind (h.keeps (keeps_validate _ _)) fun _ => ?_
      exact h.bind (h.insert _ _ _) fun _ => h.noted _
  | some current =>
      dsimp only
      split
      · exact h.keeps (keeps_throw_bind _ _)
      · refine h.bind (h.keeps (keeps_validate _ _)) fun _ => ?_
        exact h.bind (h.update _ _ _) fun _ => h.noted _

theorem KeepsUp.dropReleases (h : r.KeepsUp R) (now : CivilTime) (id : String) (version : Json)
    (change : Plugin → Plugin) (user : Option String) :
    ∀ w, R w (start (r.dropReleases now id version change user) w).2 := by
  refine h.bind (h.keeps (Catalog.keeps_byId _ _)) fun _ => h.bind (h.update _ _ _) fun _ => ?_
  refine h.bind (h.keeps (keeps_actor _ _)) fun _ => h.bind (h.note _ _) fun _ => ?_
  exact h.bind (h.artifact _ _) fun _ => h.keeps (keeps_pure _)

theorem KeepsUp.deleteFound (h : r.KeepsUp R) (now : CivilTime) (id : String)
    (user : Option String) (releases : List Release) :
    ∀ w, R w (start (r.deleteFound now id user releases) w).2 := by
  -- along the releases, and the record goes in the end
  induction releases with
  | nil =>
      refine h.bind (h.keeps (keeps_pure _)) fun _ => h.bind (h.delete _) fun _ => ?_
      exact h.bind (h.keeps (keeps_actor _ _)) fun _ => h.note _ _
  | cons release rest ih =>
      rw [deleteFound_cons]
      exact h.bind (h.dropReleases _ _ _ _ _) fun _ => ih

theorem KeepsUp.deletion (h : r.KeepsUp R) (now : CivilTime) (id : String) (user : Option String) :
    ∀ w, R w (start (r.delete now id user) w).2 := by
  refine h.bind (h.keeps (Catalog.keeps_byId? _ _)) fun found => ?_
  cases found with
  | none => exact h.keeps (keeps_pure _)
  | some p => exact h.deleteFound now id user p.releases

theorem KeepsUp.createRelease (h : r.KeepsUp R) (now : CivilTime) (id : String) (release : Release)
    (user : Option String) : ∀ w, R w (start (r.createRelease now id release user) w).2 := by
  refine h.bind (h.keeps (keeps_actor _ _)) fun _ => ?_
  refine h.bind (h.keeps (keeps_requireCopy _)) fun _ => ?_
  refine h.bind (h.keeps (Catalog.keeps_byId _ _)) fun _ => ?_
  refine h.bind (h.keeps (keeps_validate _ _)) fun _ => ?_
  exact h.bind (h.update _ _ _) fun _ => h.noted _

theorem KeepsUp.upsertRelease (h : r.KeepsUp R) (now : CivilTime) (id : String) (release : Release)
    (user : Option String) : ∀ w, R w (start (r.upsertRelease now id release user) w).2 := by
  refine h.bind (h.keeps (keeps_actor _ _)) fun _ => ?_
  refine h.bind (h.keeps (keeps_requireCopy _)) fun _ => ?_
  refine h.bind (h.keeps (Catalog.keeps_byId _ _)) fun _ => ?_
  dsimp only
  split
  · exact h.keeps (keeps_throw_bind _ _)
  · refine h.bind (h.keeps (keeps_validate _ _)) fun _ => ?_
    exact h.bind (h.update _ _ _) fun _ => h.noted _

theorem KeepsUp.preferRelease (h : r.KeepsUp R) (now : CivilTime) (id version : String)
    (preference : Json) (user : Option String) :
    ∀ w, R w (start (r.preferRelease now id version preference user) w).2 := by
  refine h.bind (h.keeps (Catalog.keeps_byId _ _)) fun _ => ?_
  dsimp only
  split
  · exact h.keeps (keeps_refuse _)
  · refine h.bind (h.keeps (keeps_actor _ _)) fun _ => ?_
    exact h.bind (h.update _ _ _) fun _ => h.noted _

/-- What each step keeps up is kept up by each operation. -/
theorem KeepsUp.perform (h : r.KeepsUp R) (now : CivilTime) (op : Operation) (w : World σ) :
    R w (start (r.perform now op) w).2 := by
  have hmap : ∀ {α : Type} {x : Action σ α} {f : α → Answer}, (∀ w, R w (start x w).2) →
      R w (start (f <$> x) w).2 := by
    intro α x f hx
    rw [start_map_snd]
    exact hx w
  cases op with
  | findAll => exact hmap (h.keeps (Catalog.keeps_all _))
  | findByService service => exact hmap (h.keeps (keeps_findByService _ _))
  | find id => exact hmap (h.keeps (Catalog.keeps_byId _ _))
  | validate plugin => exact hmap (h.keeps (keeps_validate _ _))
  | upsert candidate => exact hmap (h.upsert _ _)
  | delete id user => exact hmap (h.deletion _ _ _)
  | createRelease id release user => exact hmap (h.createRelease _ _ _ _)
  | upsertRelease id release user => exact hmap (h.upsertRelease _ _ _ _)
  | deleteRelease id version user =>
      cases version with
      | _ => exact hmap (h.dropReleases _ _ _ _ _)
  | preferRelease id version preference user =>
      cases version with
      | str version => exact hmap (h.preferRelease _ _ _ _ _)
      | _ => exact hmap (h.keeps ((Catalog.keeps_byId _ _).bind fun _ => keeps_refuse _))

end Registry

/-! ## The table -/

/-- There is a table if there was one, and it is the same if it must not be written. -/
def World.Guards (w w' : World σ) : Prop :=
  w.table ≠ none → w'.table ≠ none ∧ (w.readOnly = true → w.SameRecords w')

theorem World.SameRecords.guards {w w' : World σ} (h : w.SameRecords w') : w.Guards w' :=
  fun htable => ⟨by rwa [h.table], fun _ => h⟩

theorem World.Guards.trans {w₁ w₂ w₃ : World σ} (h : w₁.Guards w₂) (h' : w₂.Guards w₃) :
    w₁.Guards w₃ := by
  intro htable
  obtain ⟨htable₂, hsame⟩ := h htable
  obtain ⟨htable₃, hsame'⟩ := h' htable₂
  exact ⟨htable₃, fun hreadOnly =>
    (hsame hreadOnly).trans (hsame' ((hsame hreadOnly).readOnly.trans hreadOnly))⟩

namespace Catalog

/-- An action that is undone when it fails, and that writes a table only where it may. -/
theorem guards_of_atomic {α : Type} {x : Action σ α} (h : x.Atomic)
    (hok : ∀ {w t a w'}, w.table = some t → start x w = (.ok a, w') →
      w.readOnly = false ∧ w'.table ≠ none) (w : World σ) : w.Guards (start x w).2 := by
  intro htable
  obtain ⟨t, ht⟩ := Option.ne_none_iff_exists'.mp htable
  rcases hstart : start x w with ⟨failure | a, w'⟩
  · exact (h w failure w' hstart).sameRecords.guards htable
  · obtain ⟨hwritable, htable'⟩ := hok ht hstart
    exact ⟨htable', fun hreadOnly => by cases hwritable.symm.trans hreadOnly⟩

theorem guards_insert (timing : Timing) (now : CivilTime) (id : String) (plugin : Plugin)
    (w : World σ) : w.Guards (start (insert timing now id plugin) w).2 := by
  refine guards_of_atomic (insert_calm_and_atomic timing now id plugin).2 (fun ht h => ?_) w
  obtain ⟨_, t', _, _, _, hwritable, _, ht', _⟩ := insert_eq_ok ht h
  exact ⟨hwritable, by rw [ht']; nofun⟩

theorem guards_update (timing : Timing) (now : CivilTime) (id : String) (plugin : Plugin)
    (w : World σ) : w.Guards (start (update timing now id plugin) w).2 := by
  refine guards_of_atomic (update_calm_and_atomic timing now id plugin).2 (fun ht h => ?_) w
  obtain ⟨_, _, _, _, _, _, hwritable, ht', _⟩ := update_eq_ok ht h
  exact ⟨hwritable, by rw [ht']; nofun⟩

theorem guards_delete (timing : Timing) (id : String) (w : World σ) :
    w.Guards (start (delete timing id) w).2 := by
  intro htable
  obtain ⟨t, ht⟩ := Option.ne_none_iff_exists'.mp htable
  rcases hstart : start (delete timing id) w with ⟨failure | u, w'⟩
  · exact ((delete_calm_and_atomic timing id).2 w failure w' hstart).sameRecords.guards htable
  · unfold delete at hstart
    rw [start_session_eq_ok, start_bind_eq_ok] at hstart
    obtain ⟨found, w₁, hget, hstart⟩ := hstart
    obtain ⟨-, -, hk⟩ := get_eq_ok ht hget
    cases found with
    | none =>
        cases hstart
        exact hk.sameRecords.guards htable
    | some row =>
        dsimp only at hstart
        have hremove := remove_start (hk.table.trans ht) timing row
        split at hremove
        · obtain ⟨w₂, hfails, _⟩ := hremove
          cases hfails.symm.trans hstart
        · rename_i hwritable
          obtain ⟨w₂, hremoved, ht', _⟩ := hremove
          cases hremoved.symm.trans hstart
          refine ⟨by rw [ht']; nofun, fun hreadOnly => ?_⟩
          exact absurd (hk.readOnly.trans hreadOnly) hwritable

end Catalog

/-- **No operation takes the table away, and one that must not be written is left alone.** -/
theorem Registry.keepsUp_guards (r : Registry σ) : r.KeepsUp World.Guards where
  trans := .trans
  kept h := h.sameRecords.guards
  note _ _ w := World.SameRecords.guards (w := w) ⟨rfl, rfl⟩
  insert := Catalog.guards_insert r.timing
  update := Catalog.guards_update r.timing
  delete := Catalog.guards_delete r.timing
  artifact id version w := (deleteArtifact_start r id version w).1.guards

end PluginRegistry
