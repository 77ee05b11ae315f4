import PluginRegistry.Proofs.UniqueVersions

/-!
# Which release is preferred

`Preferences` is a machine that knows of each stored plugin only which version is preferred, if one
is. It follows the history of a run: an upsert that makes a record prefers none, a release that
comes in as preferred takes the preference over, a release that is replaced, removed or no longer
preferred gives it up, and a failure changes nothing. In every state that a run reaches, the
releases that bear the flag are the one that the machine names, or none.

The flags of the siblings are cleared by version, so the machine is right only where versions are
unique.
-/

namespace PluginRegistry

/-- Which version of each plugin is preferred; nothing is known of a plugin that is not stored. -/
abbrev Preferences := String → Option (Option String)

namespace Preferences

/-- No plugin is stored. -/
def empty : Preferences := fun _ => none

/-- Changes what is preferred of one plugin, if it is stored. -/
def adjust (id : String) (change : Option String → Option String) (s : Preferences) : Preferences :=
  fun id' => if id' = id then (s id).map change else s id'

/-- Takes the preference from a version. -/
def reset (version : String) (preferred : Option String) : Option String :=
  preferred.filter (· ≠ version)

/-- Gives the preference to a version, or takes it from it, as a flag says. -/
def prefer (version : String) (flag : Bool) (preferred : Option String) : Option String :=
  if flag then some version else reset version preferred

/-- What is preferred after an operation that succeeded. -/
def follow (s : Preferences) : Operation → Preferences
  | .upsert candidate =>
    -- a record that is new prefers none of its releases, and a stored one keeps its preference
    fun id => if id = candidate.id then some ((s id).getD none) else s id
  | .delete id _ => fun id' => if id' = id then none else s id'
  | .createRelease id release _ =>
    s.adjust id fun preferred => if release.preferred then some release.version else preferred
  | .upsertRelease id release _ => s.adjust id (prefer release.version release.preferred)
  | .deleteRelease id version _ =>
    match version with
    | .str version => s.adjust id (reset version)
    | _ => s
  | .preferRelease id version preference _ =>
    match version, preference with
    | .str version, .bool flag => s.adjust id (prefer version flag)
    | _, _ => s
  | _ => s

/-- What is preferred after an event. -/
def step (s : Preferences) (e : Event) : Preferences :=
  if e.succeeded then s.follow e.operation else s

/-- What the machine says of a plugin is what its record shows. -/
structure AgreesAt {σ : Type} (s : Preferences) (w : World σ) (id : String) : Prop where
  /-- Nothing is said of a plugin that is not stored. -/
  absent : w.row? id = none → s id = none
  /-- The releases that are preferred are the one that the machine names, or none. -/
  present : ∀ row p, w.row? id = some row → row.Holds p →
    ∃ preferred, s id = some preferred ∧ p.preferredVersions = preferred.toList

theorem adjust_self {id : String} {change : Option String → Option String} {s : Preferences}
    {preferred : Option String} (h : s id = some preferred) :
    s.adjust id change id = some (change preferred) := by
  unfold adjust
  rw [if_pos rfl, h]
  rfl

theorem adjust_other {id id' : String} {change : Option String → Option String}
    {s : Preferences} (h : id' ≠ id) : s.adjust id change id' = s id' := if_neg h

theorem follow_other {s : Preferences} {op : Operation} {id : String}
    (h : op.target? ≠ some id) : s.follow op id = s id := by
  have hne : ∀ {id' : String}, op.target? = some id' → id ≠ id' :=
    fun ht he => h (he ▸ ht)
  cases op with
  | upsert candidate => exact if_neg (hne rfl)
  | delete id' user => exact if_neg (hne rfl)
  | createRelease id' release user => exact adjust_other (hne rfl)
  | upsertRelease id' release user => exact adjust_other (hne rfl)
  | deleteRelease id' version user =>
      simp only [follow]
      split
      · exact adjust_other (hne rfl)
      · rfl
  | preferRelease id' version preference user =>
      simp only [follow]
      split
      · exact adjust_other (hne rfl)
      · rfl
  | _ => rfl

theorem toList_reset (version : String) (preferred : Option String) :
    (reset version preferred).toList = preferred.toList.filter (· ≠ version) := Option.toList_filter

theorem toList_prefer (version : String) (flag : Bool) (preferred : Option String) :
    (prefer version flag preferred).toList =
      if flag then [version] else preferred.toList.filter (· ≠ version) := by
  cases flag
  · exact toList_reset version preferred
  · rfl

/-- A revision changes what is preferred as the machine does. -/
theorem follow_revision? {s : Preferences} {op : Operation} (hop : op.Proper) {id : String}
    {stamp : Stamp} {p q : Plugin} {preferred : Option String} (htarget : op.target? = some id)
    (h : op.revision? stamp p = some q) (hp : p.versions.Nodup) (hq : q.versions.Nodup)
    (hs : s id = some preferred) (hshown : p.preferredVersions = preferred.toList) :
    ∃ preferred', s.follow op id = some preferred' ∧ q.preferredVersions = preferred'.toList := by
  cases op with
  | upsert candidate =>
      -- the candidate prefers none of its releases
      cases htarget
      simp only [Operation.revision?] at h
      split at h
      · cases h
        refine ⟨preferred, (if_pos rfl).trans (by rw [hs]; rfl), ?_⟩
        rw [Plugin.preferredVersions_mergedInto, Plugin.preferredVersions_withoutPreference,
          List.append_nil, hshown]
      · cases h
  | createRelease id release user =>
      cases htarget
      cases h
      refine ⟨_, adjust_self hs, ?_⟩
      have hnew : (release.stamped stamp).version ∉ p.versions := by
        rw [Plugin.versions_append] at hq
        exact fun hmem => (List.nodup_append.mp hq).2.2 _ hmem _ (List.mem_singleton.mpr rfl) rfl
      rw [Plugin.preferredVersions_append hnew, hshown]
      cases hpref : release.preferred <;> simp [hpref]
  | upsertRelease id release user =>
      cases htarget
      simp only [Operation.revision?] at h
      split at h
      · rename_i hmem
        cases h
        have hmem' : (release.stamped stamp).version ∈ p.versions := hmem
        refine ⟨_, adjust_self hs, ?_⟩
        rw [Plugin.preferredVersions_replace hp hmem', hshown]
        exact (toList_prefer _ _ _).symm
      · cases h
  | deleteRelease id version user =>
      obtain ⟨version, rfl⟩ := hop
      cases htarget
      cases h
      refine ⟨_, adjust_self hs, ?_⟩
      rw [Plugin.preferredVersions_drop, hshown, toList_reset]
  | preferRelease id version preference user =>
      obtain ⟨⟨version, rfl⟩, flag, rfl⟩ := hop
      cases htarget
      obtain ⟨release, hrelease, rfl⟩ := Option.map_eq_some_iff.mp h
      obtain ⟨hmem, rfl⟩ := Plugin.release?_eq_some hrelease
      refine ⟨_, adjust_self hs, ?_⟩
      have hversion : ((release.preferAs (.bool flag)).stamped stamp).version ∈ p.versions :=
        Plugin.mem_versions.mpr ⟨release, hmem, rfl⟩
      rw [Plugin.preferredVersions_replace hp hversion, hshown]
      exact (toList_prefer _ _ _).symm
  | _ => cases h

end Preferences

namespace Registry

variable {σ : Type}

open Preferences

theorem agreesAt_of_other {s : Preferences} {op : Operation} {w w' : World σ} {id : String}
    (h : s.AgreesAt w id) (htarget : op.target? ≠ some id) (hrow : w'.row? id = w.row? id) :
    (s.follow op).AgreesAt w' id where
  absent := by
    rw [follow_other htarget, hrow]
    exact h.absent
  present := by
    rw [follow_other htarget, hrow]
    exact h.present

/-- The machine follows an operation that succeeded. -/
theorem Effect.agreesAt {r : Registry σ} {now : CivilTime} {op : Operation} (hop : op.Proper)
    {w w' : World σ} (h : r.Effect now w w' op) (hu : w.Unique) (hu' : w'.Unique)
    {s : Preferences} {id : String} (hagree : s.AgreesAt w id) : (s.follow op).AgreesAt w' id := by
  cases h with
  | unchanged htarget hrows =>
      refine agreesAt_of_other hagree (fun he => ?_) (hrows id)
      cases htarget.symm.trans he
  | @made candidate hvalid hmade =>
      by_cases hid : id = candidate.id
      · -- a record that was made prefers none of its releases
        subst hid
        refine ⟨fun hnone => ?_, fun row p hrow hp => ⟨none, ?_, ?_⟩⟩
        · obtain ⟨row, hrow, _⟩ := hmade.after
          cases hnone.symm.trans hrow
        · exact (if_pos rfl).trans (by rw [hagree.absent hmade.before]; rfl)
        · rw [hmade.eq_restored hrow hp, Plugin.preferredVersions_restored,
            Plugin.preferredVersions_withoutPreference]
          rfl
      · exact agreesAt_of_other hagree (fun he => hid (Option.some.inj he).symm)
          (hmade.others id hid)
  | @revised _ target row p q stamp htarget _ hrevision hvalid hwf hrewritten =>
      by_cases hid : id = target
      · subst hid
        refine ⟨fun hnone => ?_, fun row' p' hrow' hp' => ?_⟩
        · obtain ⟨row', hrow', _⟩ := hrewritten.after
          cases hnone.symm.trans hrow'
        · have hold := hrewritten.held.wellFormed
          have hq : q.versions.Nodup := by
            rw [← Plugin.versions_overwrittenBy hold hwf, ← hrewritten.eq_overwrittenBy hrow' hp']
            exact hu' id row' p' hrow' hp'
          obtain ⟨preferred, hs, hshown⟩ :=
            hagree.present row p hrewritten.before hrewritten.held
          rw [hrewritten.eq_overwrittenBy hrow' hp',
            Plugin.preferredVersions_overwrittenBy hold hwf]
          exact follow_revision? (p := p.timed row) hop htarget hrevision
            (hu id row p hrewritten.before hrewritten.held) hq hs hshown
      · refine agreesAt_of_other hagree (fun he => ?_) (hrewritten.others id hid)
        exact hid (Option.some.inj (he.symm.trans htarget))
  | @removed target _ hremoved =>
      by_cases hid : id = target
      · subst hid
        refine ⟨fun _ => if_pos rfl, fun row p hrow _ => ?_⟩
        cases hremoved.after.symm.trans hrow
      · exact agreesAt_of_other hagree (fun he => hid (Option.some.inj he).symm)
          (hremoved.others id hid)

/-- The machine follows a call. -/
theorem agreesAt_answer {r : Registry σ} (hr : Validator.uniqueVersions ∈ r.validators) {c : Call}
    (hop : c.operation.Proper) {w : World σ} (hs : w.Sound) (hu : w.Unique) {s : Preferences}
    {id : String} (h : s.AgreesAt w id) :
    (s.step ⟨c.operation, (r.answer c w).1.isOk⟩).AgreesAt (r.answer c w).2 id := by
  unfold Preferences.step
  rcases answer_cases r hs hop with ⟨hfailed, hk⟩ | ⟨hok, heffect⟩
  · rw [hfailed, if_neg Bool.false_ne_true]
    have hrow := hk.sameRecords.row? id
    exact ⟨fun hnone => h.absent (hrow.symm.trans hnone),
      fun row p hrow' hp => h.present row p (hrow.symm.trans hrow') hp⟩
  · rw [if_pos hok]
    exact heffect.agreesAt hop hu (heffect.unique hr hu) h

/-- Calls by which a release takes the preference over and is removed, and another one gets it. -/
def takeover : List Call :=
  [⟨default, .upsert (.bare "acme.a" [.bare "1.0.0" true])⟩,
    ⟨default, .createRelease "acme.a" (.bare "2.0.0" true) none⟩,
    ⟨default, .deleteRelease "acme.a" (.str "2.0.0") none⟩,
    ⟨default, .preferRelease "acme.a" (.str "1.0.0") (.bool true) none⟩]

end Registry

end PluginRegistry
