import PluginRegistry.Proofs.UniqueVersions

/-!
# Preferred releases share a version

A release that becomes preferred makes its siblings yield, and these are told by their versions. So
whatever the validators ask for, the releases of a record that are preferred all have one version.
Only where versions are unique does that make it one release: of a version that occurs several
times, each release can be preferred, and none of them makes the others yield.
-/

namespace PluginRegistry

namespace Release

/-- The siblings of a preferred release have yielded. -/
theorem version_of_mem_settle {stamp : Stamp} {r written : Release} {releases : List Release}
    (hwritten : written.preferred) (h : r ∈ written.settle stamp releases) (hr : r.preferred) :
    r.version = written.version := by
  unfold settle at h
  rw [if_pos hwritten] at h
  obtain ⟨old, _, rfl⟩ := List.mem_map.mp h
  by_cases hversion : old.version = written.version
  · rw [if_pos hversion]
    exact hversion
  · -- what has yielded is not preferred
    rw [if_neg hversion] at hr
    cases hr

end Release

namespace Plugin

/-- The releases that are preferred have one version. -/
def SharesPreference (p : Plugin) : Prop :=
  ∃ version, ∀ r ∈ p.releases, r.preferred → r.version = version

theorem sharesPreference_iff {p : Plugin} :
    p.SharesPreference ↔ ∃ version, ∀ m ∈ p.marks, m.2 → m.1 = version := by
  unfold SharesPreference marks
  simp only [List.forall_mem_map]
  rfl

/-- What is preferred may get less. -/
theorem SharesPreference.of_subset {p q : Plugin} (h : p.SharesPreference)
    (hsub : ∀ r ∈ q.releases, r.preferred → r ∈ p.releases) : q.SharesPreference := by
  obtain ⟨version, hversion⟩ := h
  exact ⟨version, fun r hr hpreferred => hversion r (hsub r hr hpreferred) hpreferred⟩

theorem sharesPreference_withoutPreference (p : Plugin) : p.withoutPreference.SharesPreference := by
  refine ⟨"", fun r hr hpreferred => ?_⟩
  obtain ⟨old, _, rfl⟩ := List.mem_map.mp hr
  cases hpreferred

/-- A release that is written among others makes them yield, or is not preferred itself. -/
theorem SharesPreference.settle {p : Plugin} (h : p.SharesPreference) {stamp : Stamp}
    {release : Release} {releases : List Release}
    (hmem : ∀ r ∈ releases, r = release ∨ r ∈ p.releases) :
    ({ p with releases := release.settle stamp releases } : Plugin).SharesPreference := by
  by_cases hpreferred : release.preferred
  · exact ⟨release.version, fun r hr hr' => Release.version_of_mem_settle hpreferred hr hr'⟩
  · refine h.of_subset fun r hr hr' => ?_
    have hr : r ∈ releases := by
      unfold Release.settle at hr
      rwa [if_neg hpreferred] at hr
    refine (hmem r hr).resolve_left ?_
    rintro rfl
    exact hpreferred hr'

/-- At most as many releases are preferred as have the version. -/
theorem length_preferred_le {p : Plugin} {version : String}
    (h : ∀ r ∈ p.releases, r.preferred → r.version = version) :
    (p.releases.filter Release.preferred).length ≤ p.versions.count version := by
  unfold versions
  rw [List.count_eq_countP, List.countP_map, ← List.countP_eq_length_filter]
  refine List.countP_mono_left fun r hr hpreferred => ?_
  simpa using h r hr hpreferred

end Plugin

/-- A revision leaves the preference to one version. -/
theorem Operation.sharesPreference_of_revision? {op : Operation} {stamp : Stamp} {p q : Plugin}
    (hp : p.SharesPreference) (h : op.revision? stamp p = some q) : q.SharesPreference := by
  cases op with
  | upsert candidate =>
      -- what comes in is not preferred
      cases (Option.ite_none_right_eq_some.mp h).2
      refine hp.of_subset fun r hr hpreferred => (List.mem_append.mp hr).resolve_right fun hnew => ?_
      obtain ⟨old, _, rfl⟩ := List.mem_map.mp hnew
      cases hpreferred
  | createRelease id release user =>
      cases h
      refine hp.settle fun r hr => ?_
      exact (List.mem_append.mp hr).symm.imp_left List.mem_singleton.mp
  | upsertRelease id release user =>
      cases (Option.ite_none_right_eq_some.mp h).2
      exact hp.settle fun r hr => Plugin.mem_setRelease hr
  | deleteRelease id version user =>
      cases version with
      | str version =>
          cases h
          exact hp.of_subset fun r hr _ => (List.mem_filter.mp hr).1
      | _ =>
          cases h
          exact hp
  | preferRelease id version preference user =>
      cases version with
      | str version =>
          obtain ⟨release, _, rfl⟩ := Option.map_eq_some_iff.mp h
          exact hp.settle fun r hr => Plugin.mem_setRelease hr
      | _ => cases h
  | _ => cases h

namespace Registry

variable {σ : Type}

theorem maintains_sharesPreference (r : Registry σ) : r.Maintains Plugin.SharesPreference where
  made candidate _ := by
    rw [Plugin.sharesPreference_iff, Plugin.marks_restored, ← Plugin.sharesPreference_iff]
    exact candidate.sharesPreference_withoutPreference
  revised {_ _ row p q} hrevision _ hp hq hshares := by
    have htimed : (p.timed row).SharesPreference := hshares
    rw [Plugin.sharesPreference_iff, Plugin.marks_overwrittenBy hp hq,
      ← Plugin.sharesPreference_iff]
    exact Operation.sharesPreference_of_revision? htimed hrevision

/-- **The releases of a stored record that are preferred have one version**, whatever the validators
ask for. There are at most as many of them as releases of that version, so at most one if versions
are unique. -/
theorem preferred_share_version {r : Registry σ} {w : World σ} (hw : r.Reached w) {id : String}
    {p : Plugin} (hp : w.plugin? id = some p) :
    ∃ version, (∀ release ∈ p.releases, release.preferred → release.version = version) ∧
      (p.releases.filter Release.preferred).length ≤ p.versions.count version ∧
      (p.versions.Nodup → (p.releases.filter Release.preferred).length ≤ 1) := by
  obtain ⟨row, stored, hrow, hstored, rfl⟩ := hw.sound.row_of_plugin? hp
  obtain ⟨version, hversion⟩ := hw.every r.maintains_sharesPreference id row stored hrow hstored
  have hcount := Plugin.length_preferred_le hversion
  exact ⟨version, hversion, hcount, fun hnodup =>
    hcount.trans (List.nodup_iff_count_le_one.mp hnodup version)⟩

/-- A registry that asks for nothing. -/
def permissive : Registry Unit := { plain none with validators := [] }

/-- A plugin with one version twice, either time as a preferred release. -/
def preferredTwice : World Unit :=
  permissive.run
    [⟨default, .upsert (.bare "acme.a" [.bare "0.9.0" false])⟩,
      ⟨default, .createRelease "acme.a" (.bare "1.0.0" true) none⟩,
      ⟨default, .createRelease "acme.a" (.bare "1.0.0" true) none⟩] (.blank ())

/-- Two releases are preferred, which have their version in common. -/
theorem preferred_share_version_twice :
    ∃ p, preferredTwice.plugin? "acme.a" = some p ∧
      (p.releases.filter Release.preferred).length = 2 ∧
      ∃ version, ∀ release ∈ p.releases, release.preferred → release.version = version := by
  have hreached : permissive.Reached preferredTwice := by
    refine Reached.run (.empty ⟨rfl, rfl⟩) ?_
    decide
  have hseen : (preferredTwice.plugin? "acme.a").map
      (fun p => (p.releases.filter Release.preferred).length) = some 2 := by
    decide +kernel
  obtain ⟨p, hp, hlength⟩ := Option.map_eq_some_iff.mp hseen
  obtain ⟨version, hversion, _⟩ := preferred_share_version hreached hp
  exact ⟨p, hp, hlength, version, hversion⟩

end Registry

end PluginRegistry
