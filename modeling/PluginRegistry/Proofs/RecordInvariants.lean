import PluginRegistry.Proofs.Atomicity
import PluginRegistry.Proofs.RuleMeaning

/-!
# What holds of every stored record

A record comes into the table in two ways: an upsert makes it, or it is written over the one that is
there. So a property that records have when they are made, and keep when they are revised, is one of
all stored records in every state that is reached. `Registry.Maintains` is what has to be shown of
the property; `Reached.every` is what follows.

A rule that is asked for is such a property, if it objects to nothing in a record with fewer
releases: what is not validated only leaves out releases, or touches what no rule looks at.
-/

namespace PluginRegistry

/-! ## Changes that are not validated -/

namespace Plugin

theorem outline_eq_publications (p : Plugin) :
    p.outline = p.publications.map fun r => (r.version, r.requires) := by
  unfold outline publications
  rw [List.map_map]
  rfl

theorem Within.of_publications {p q : Plugin} (hid : q.id = p.id)
    (h : q.publications.Sublist p.publications) : q.Within p where
  id := hid
  outline := by
    rw [outline_eq_publications, outline_eq_publications]
    exact h.map _

theorem within_restored (p : Plugin) : p.restored.Within p where
  id := rfl
  outline := by
    unfold outline restored
    rw [List.map_map]
    exact List.Sublist.refl _

theorem within_drop (version : String) (p : Plugin) : (p.drop version).Within p := by
  refine .of_publications rfl ?_
  rw [publications_drop]
  exact List.filter_sublist

/-- Whether a release is preferred is nothing that rules look at. -/
theorem within_replace {stamp : Stamp} {release old : Release} {p : Plugin}
    (hold : p.release? release.version = some old) (hpub : release.publication = old.publication) :
    (p.replace stamp release).Within p := by
  refine .of_publications rfl ?_
  rw [publications_replace hold hpub]

end Plugin

/-- A revision that is not validated brings in nothing that rules look at. -/
theorem Operation.within_of_revision? {op : Operation} {stamp : Stamp} {p q : Plugin}
    (h : op.revision? stamp p = some q) (hop : ¬op.IsValidated) : q.Within p := by
  cases op with
  | upsert candidate => exact absurd trivial hop
  | createRelease id release user => exact absurd trivial hop
  | upsertRelease id release user => exact absurd trivial hop
  | deleteRelease id version user =>
      cases version with
      | str version =>
          cases h
          exact p.within_drop version
      | _ =>
          cases h
          exact ⟨rfl, List.Sublist.refl _⟩
  | preferRelease id version preference user =>
      cases version with
      | str version =>
          obtain ⟨release, hrelease, rfl⟩ := Option.map_eq_some_iff.mp h
          have hversion : ((release.preferAs preference).stamped stamp).version = version := by
            rw [Release.version_stamped, Release.version_preferAs,
              (Plugin.release?_eq_some hrelease).2]
          refine Plugin.within_replace (by rw [hversion, hrelease]) ?_
          rw [Release.publication_stamped, Release.publication_preferAs]
      | _ => cases h
  | _ => cases h

/-! ## Properties of stored records -/

/-- Every stored record has the property. -/
def World.Every {σ : Type} (P : Plugin → Prop) (w : World σ) : Prop :=
  ∀ id row p, w.row? id = some row → row.Holds p → P p

namespace World

variable {σ : Type} {P : Plugin → Prop}

theorem Empty.every {w : World σ} (h : w.Empty) : w.Every P := by
  intro id row p hrow _
  cases (h.row? id).symm.trans hrow

theorem SameRecords.every {w w' : World σ} (h : w.SameRecords w') (hw : w.Every P) : w'.Every P :=
  fun id row p hrow hp => hw id row p ((h.row? id).symm.trans hrow) hp

end World

namespace Registry

variable {σ : Type}

/-- The property holds of records that are made, and of what is kept when a record that has it is
revised. -/
structure Maintains (r : Registry σ) (P : Plugin → Prop) : Prop where
  /-- A record that was accepted and made has it. No release comes in as preferred. -/
  made : ∀ candidate : Plugin, r.Accepts candidate.withoutPreference →
    P candidate.withoutPreference.restored
  /-- So has what is kept of a revision of a record that has it. -/
  revised : ∀ {op : Operation} {stamp : Stamp} {row : Row} {p q : Plugin},
    op.revision? stamp (p.timed row) = some q → (op.IsValidated → r.Accepts q) →
      p.WellFormed → q.WellFormed → P p → P (p.overwrittenBy q)

variable {r : Registry σ} {P : Plugin → Prop}

/-- A successful operation leaves the property to every record. -/
theorem Effect.every (hP : r.Maintains P) {now : CivilTime} {op : Operation} {w w' : World σ}
    (h : r.Effect now w w' op) (hw : w.Every P) : w'.Every P := by
  intro id row' p' hrow' hp'
  cases h with
  | unchanged _ hrows => exact hw id row' p' ((hrows id).symm.trans hrow') hp'
  | @made candidate hvalid hmade =>
      by_cases hid : id = candidate.id
      · subst hid
        rw [hmade.eq_restored hrow' hp']
        exact hP.made _ hvalid
      · exact hw id row' p' ((hmade.others id hid).symm.trans hrow') hp'
  | @revised _ target row p q stamp _ _ hrevision hvalid hwf hrewritten =>
      by_cases hid : id = target
      · subst hid
        rw [hrewritten.eq_overwrittenBy hrow' hp']
        exact hP.revised hrevision hvalid hrewritten.held.wellFormed hwf
          (hw id row p hrewritten.before hrewritten.held)
      · exact hw id row' p' ((hrewritten.others id hid).symm.trans hrow') hp'
  | @removed target _ hremoved =>
      by_cases hid : id = target
      · subst hid
        cases hremoved.after.symm.trans hrow'
      · exact hw id row' p' ((hremoved.others id hid).symm.trans hrow') hp'

/-- Every call leaves the property to every record. -/
theorem every_answer (hP : r.Maintains P) {c : Call} (hop : c.operation.Proper) {w : World σ}
    (hs : w.Sound) (hw : w.Every P) : (r.answer c w).2.Every P := by
  rcases answer_cases r hs hop with ⟨_, hk⟩ | ⟨_, heffect⟩
  · exact hk.sameRecords.every hw
  · exact heffect.every hP hw

/-- What a hereditary rule asks for is maintained. -/
theorem maintains_check {rule : Validator} (hrule : rule ∈ r.validators)
    (hhereditary : rule.IsHereditary) : r.Maintains fun p => rule.check p = [] where
  made candidate hvalid :=
    hhereditary candidate.withoutPreference.within_restored (hvalid.check hrule)
  revised {op stamp row p q} hrevision hvalid _ _ hp := by
    have hq : rule.check q = [] := by
      by_cases hop : op.IsValidated
      · exact (hvalid hop).check hrule
      · -- the times of the row are nothing that a rule looks at
        have htimed : (p.timed row).Within p := ⟨rfl, List.Sublist.refl _⟩
        exact hhereditary (Operation.within_of_revision? hrevision hop)
          (hhereditary htimed hp)
    unfold Plugin.overwrittenBy
    split
    · exact hp
    · exact hhereditary q.within_restored hq

/-- **What is maintained holds of every stored record, in every state that is reached.** -/
theorem Reached.every (hP : r.Maintains P) {w : World σ} (hw : r.Reached w) : w.Every P := by
  induction hw with
  | empty hw => exact hw.every
  | call c hop hw ih => exact every_answer hP hop hw.sound ih
  | stored artifacts _ ih => exact ih

end Registry

end PluginRegistry
