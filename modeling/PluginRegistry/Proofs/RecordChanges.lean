import PluginRegistry.Proofs.RecordCodec
import Mathlib.Data.List.Nodup
import Mathlib.Data.List.Count

/-!
# What the changes do to a record

Each change is told release by release. A release that becomes preferred makes its siblings yield:
they lose the preference, bear the stamp of the change, and keep the rest. Where versions are
unique, replacing the first release of a version is replacing the only one, so a change of one
release leaves the others where they are.
-/

namespace PluginRegistry

namespace Release

/-- The release once another one was written. -/
def yieldTo (stamp : Stamp) (r written : Release) : Release :=
  if written.preferred then r.demoted stamp else r

/-- What was published: all of a release but its preference and the stamp of its last change. -/
def publication (r : Release) : Release :=
  { r with preferred := false, preferredAs := none, lastModified := none, lastModifiedBy := none }

@[simp]
theorem version_stamped (stamp : Stamp) (r : Release) : (r.stamped stamp).version = r.version := rfl

@[simp]
theorem preferred_stamped (stamp : Stamp) (r : Release) :
    (r.stamped stamp).preferred = r.preferred := rfl

@[simp]
theorem publication_stamped (stamp : Stamp) (r : Release) :
    (r.stamped stamp).publication = r.publication := rfl

@[simp]
theorem version_yieldTo (stamp : Stamp) (r written : Release) :
    (r.yieldTo stamp written).version = r.version := by
  unfold yieldTo
  split <;> rfl

@[simp]
theorem preferred_yieldTo (stamp : Stamp) (r written : Release) :
    (r.yieldTo stamp written).preferred = (r.preferred && !written.preferred) := by
  unfold yieldTo
  cases written.preferred
  · simp
  · simp [demoted, stamped, withPreference]

@[simp]
theorem publication_yieldTo (stamp : Stamp) (r written : Release) :
    (r.yieldTo stamp written).publication = r.publication := by
  unfold yieldTo
  split <;> rfl

@[simp]
theorem version_preferAs (value : Json) (r : Release) : (r.preferAs value).version = r.version := by
  cases value <;> rfl

@[simp]
theorem publication_preferAs (value : Json) (r : Release) :
    (r.preferAs value).publication = r.publication := by
  cases value <;> rfl

theorem settle_eq_map (stamp : Stamp) (written : Release) (releases : List Release) :
    written.settle stamp releases =
      releases.map fun r => if r.version = written.version then r else r.yieldTo stamp written := by
  unfold settle yieldTo
  cases written.preferred
  · simp
  · simp

end Release

namespace Plugin

/-! ## Versions -/

/-- The versions of the releases that are preferred. -/
def preferredVersions (p : Plugin) : List String :=
  (p.releases.filter Release.preferred).map Release.version

theorem mem_versions {p : Plugin} {v : String} : v ∈ p.versions ↔ ∃ r ∈ p.releases, r.version = v :=
  List.mem_map

theorem setRelease_eq_map {release : Release} {releases : List Release}
    (hn : (releases.map Release.version).Nodup)
    (hm : release.version ∈ releases.map Release.version) :
    setRelease release.version release releases =
      releases.map fun r => if r.version = release.version then release else r := by
  induction releases with
  | nil => cases hm
  | cons r rest ih =>
      obtain ⟨hr, hrest⟩ := List.nodup_cons.mp hn
      unfold setRelease
      by_cases he : r.version = release.version
      · -- versions are unique, so none of the later releases is replaced
        have hother : ∀ x ∈ rest, x.version ≠ release.version :=
          fun x hx hv => hr (List.mem_map.mpr ⟨x, hx, hv.trans he.symm⟩)
        have hsame :
            (rest.map fun x => if x.version = release.version then release else x) = rest := by
          conv_rhs => rw [← List.map_id rest]
          exact List.map_congr_left fun x hx => if_neg (hother x hx)
        rw [if_pos he, List.map_cons, if_pos he, hsame]
      · have hm' : release.version ∈ rest.map Release.version :=
          (List.mem_cons.mp hm).resolve_left fun h => he h.symm
        rw [if_neg he, List.map_cons, if_neg he, ih hrest hm']

/-- A new release comes last, and the others yield to it. -/
theorem releases_append {stamp : Stamp} {release : Release} {p : Plugin}
    (h : release.version ∉ p.versions) :
    (p.append stamp release).releases =
      p.releases.map (fun r => r.yieldTo stamp release) ++ [release] := by
  have hothers : ∀ r ∈ p.releases, r.version ≠ release.version :=
    fun r hr hv => h (mem_versions.mpr ⟨r, hr, hv⟩)
  show release.settle stamp (p.releases ++ [release]) = _
  rw [Release.settle_eq_map, List.map_append]
  congr 1
  · exact List.map_congr_left fun r hr => if_neg (hothers r hr)
  · simp

/-- A release takes the place of the one of its version, and the others yield to it. -/
theorem releases_replace {stamp : Stamp} {release : Release} {p : Plugin} (hn : p.versions.Nodup)
    (hm : release.version ∈ p.versions) :
    (p.replace stamp release).releases =
      p.releases.map fun r =>
        if r.version = release.version then release else r.yieldTo stamp release := by
  unfold replace
  rw [setRelease_eq_map hn hm, Release.settle_eq_map, List.map_map]
  refine List.map_congr_left fun r _ => ?_
  by_cases he : r.version = release.version
  · simp [he]
  · simp [he]

theorem versions_append (stamp : Stamp) (release : Release) (p : Plugin) :
    (p.append stamp release).versions = p.versions ++ [release.version] := by
  unfold versions append
  rw [Release.settle_eq_map, List.map_map, ← List.map_singleton, ← List.map_append]
  refine List.map_congr_left fun r _ => ?_
  by_cases he : r.version = release.version <;> simp [he]

theorem versions_setRelease {release : Release} {releases : List Release}
    (hm : release.version ∈ releases.map Release.version) :
    (setRelease release.version release releases).map Release.version
      = releases.map Release.version := by
  induction releases with
  | nil => cases hm
  | cons r rest ih =>
      unfold setRelease
      by_cases he : r.version = release.version
      · rw [if_pos he, List.map_cons, List.map_cons, he]
      · have hm' : release.version ∈ rest.map Release.version :=
          (List.mem_cons.mp hm).resolve_left fun h => he h.symm
        rw [if_neg he, List.map_cons, List.map_cons, ih hm']

theorem versions_replace {stamp : Stamp} {release : Release} {p : Plugin}
    (hm : release.version ∈ p.versions) : (p.replace stamp release).versions = p.versions := by
  unfold versions replace
  rw [Release.settle_eq_map, List.map_map, ← versions_setRelease hm]
  refine List.map_congr_left fun r _ => ?_
  by_cases he : r.version = release.version <;> simp [he]

theorem versions_drop (version : String) (p : Plugin) :
    (p.drop version).versions = p.versions.filter (· ≠ version) := by
  unfold versions drop
  rw [List.filter_map]
  rfl

theorem versions_mergedInto (current candidate : Plugin) :
    (current.mergedInto candidate).versions = current.versions ++ candidate.versions :=
  List.map_append

theorem versions_withoutPreference (p : Plugin) : p.withoutPreference.versions = p.versions := by
  unfold versions withoutPreference
  rw [List.map_map]
  rfl

theorem release?_eq_some {version : String} {p : Plugin} {release : Release}
    (h : p.release? version = some release) :
    release ∈ p.releases ∧ release.version = version :=
  ⟨List.mem_of_find?_eq_some h, by simpa using List.find?_some h⟩

theorem release?_isSome {version : String} {p : Plugin} :
    (p.release? version).isSome ↔ version ∈ p.versions := by
  unfold release?
  rw [List.find?_isSome, mem_versions]
  simp

/-- A release that replaces another one is the first of its version then. -/
theorem release?_replace (stamp : Stamp) (release : Release) (p : Plugin) :
    (p.replace stamp release).release? release.version = some release := by
  unfold release? replace
  dsimp only
  rw [Release.settle_eq_map]
  induction p.releases with
  | nil => simp [setRelease]
  | cons r rest ih =>
      unfold setRelease
      by_cases he : r.version = release.version
      · rw [if_pos he, List.map_cons, List.find?_cons_of_pos (by simp), if_pos rfl]
      · rw [if_neg he, List.map_cons, List.find?_cons_of_neg (by simp [he]), ih]

/-! ## Which release is preferred -/

theorem preferredVersions_map {p : Plugin} {change : Release → Release}
    (h : ∀ r ∈ p.releases, (change r).version = r.version) :
    ((p.releases.map change).filter Release.preferred).map Release.version =
      (p.releases.filter fun r => (change r).preferred).map Release.version := by
  rw [List.filter_map, List.map_map]
  exact List.map_congr_left fun r hr => h r (List.mem_filter.mp hr).1

/-- Leaving out a version leaves it out of the preferred ones. -/
theorem preferredVersions_filter (version : String) (p : Plugin) :
    (p.releases.filter fun r => r.preferred && decide (r.version ≠ version)).map Release.version
      = p.preferredVersions.filter (· ≠ version) := by
  unfold preferredVersions
  rw [List.filter_map, List.filter_filter]
  congr 2
  funext r
  exact Bool.and_comm _ _

theorem preferredVersions_append {stamp : Stamp} {release : Release} {p : Plugin}
    (h : release.version ∉ p.versions) :
    (p.append stamp release).preferredVersions =
      if release.preferred then [release.version] else p.preferredVersions := by
  unfold preferredVersions
  rw [releases_append h, List.filter_append, List.map_append,
    preferredVersions_map fun r _ => Release.version_yieldTo stamp r release]
  cases hp : release.preferred
  · simp [hp]
  · simp [hp]

theorem preferredVersions_replace {stamp : Stamp} {release : Release} {p : Plugin}
    (hn : p.versions.Nodup) (hm : release.version ∈ p.versions) :
    (p.replace stamp release).preferredVersions =
      if release.preferred then [release.version]
      else p.preferredVersions.filter (· ≠ release.version) := by
  have hversion : ∀ r ∈ p.releases, (if r.version = release.version then release
      else r.yieldTo stamp release).version = r.version := by
    intro r _
    by_cases he : r.version = release.version <;> simp [he]
  show ((p.replace stamp release).releases.filter Release.preferred).map Release.version = _
  rw [releases_replace hn hm, preferredVersions_map hversion]
  cases hp : release.preferred with
  | true =>
      -- the siblings yield, and the release is the only one of its version
      have hone : p.versions.filter (· = release.version) = [release.version] := by
        rw [List.filter_eq, List.count_eq_one_of_mem hn hm]
        rfl
      have hcond : ∀ r ∈ p.releases, (if r.version = release.version then release
          else r.yieldTo stamp release).preferred = decide (r.version = release.version) := by
        intro r _
        by_cases he : r.version = release.version <;> simp [he, hp]
      rw [if_pos rfl, ← hone, List.filter_congr hcond]
      unfold versions
      rw [List.filter_map]
      rfl
  | false =>
      -- no sibling yields, and the release is left out
      have hcond : ∀ r ∈ p.releases, (if r.version = release.version then release
          else r.yieldTo stamp release).preferred
            = (r.preferred && decide (r.version ≠ release.version)) := by
        intro r _
        by_cases he : r.version = release.version <;> simp [he, hp]
      rw [List.filter_congr hcond, preferredVersions_filter]
      rfl

theorem preferredVersions_drop (version : String) (p : Plugin) :
    (p.drop version).preferredVersions = p.preferredVersions.filter (· ≠ version) := by
  rw [← preferredVersions_filter]
  unfold preferredVersions drop
  rw [List.filter_filter]

theorem preferredVersions_withoutPreference (p : Plugin) :
    p.withoutPreference.preferredVersions = [] := by
  have hnone : (p.releases.map (·.withPreference false)).filter Release.preferred = [] := by
    rw [List.filter_eq_nil_iff]
    intro r hr
    obtain ⟨r', _, rfl⟩ := List.mem_map.mp hr
    exact Bool.false_ne_true
  unfold preferredVersions withoutPreference
  rw [hnone]
  rfl

theorem preferredVersions_mergedInto (current candidate : Plugin) :
    (current.mergedInto candidate).preferredVersions
      = current.preferredVersions ++ candidate.preferredVersions := by
  unfold preferredVersions mergedInto
  rw [List.filter_append, List.map_append]

/-! ## What is published -/

/-- What the releases publish, in order. -/
def publications (p : Plugin) : List Release := p.releases.map Release.publication

theorem publications_settle (stamp : Stamp) (written : Release) (releases : List Release) :
    (written.settle stamp releases).map Release.publication
      = releases.map Release.publication := by
  rw [Release.settle_eq_map, List.map_map]
  refine List.map_congr_left fun r _ => ?_
  by_cases he : r.version = written.version <;> simp [he]

theorem publications_append (stamp : Stamp) (release : Release) (p : Plugin) :
    (p.append stamp release).publications = p.publications ++ [release.publication] := by
  show (release.settle stamp (p.releases ++ [release])).map _ = _
  rw [publications_settle, List.map_append]
  rfl

theorem mem_publications_setRelease {release r : Release} {releases : List Release}
    (hr : r ∈ releases.map Release.publication) (hv : r.version ≠ release.version) :
    r ∈ (setRelease release.version release releases).map Release.publication := by
  induction releases with
  | nil => cases hr
  | cons first rest ih =>
      unfold setRelease
      rcases List.mem_cons.mp hr with rfl | hr
      · have hfirst : first.version ≠ release.version := hv
        rw [if_neg hfirst]
        exact List.mem_cons_self
      · split
        · exact List.mem_cons_of_mem _ hr
        · exact List.mem_cons_of_mem _ (ih hr)

/-- A release that is replaced leaves alone what the others publish. -/
theorem mem_publications_replace {stamp : Stamp} {release r : Release} {p : Plugin}
    (hr : r ∈ p.publications) (hv : r.version ≠ release.version) :
    r ∈ (p.replace stamp release).publications := by
  show r ∈ (release.settle stamp _).map Release.publication
  rw [publications_settle]
  exact mem_publications_setRelease hr hv

/-- A release that publishes the same as the one that it replaces changes nothing published. -/
theorem publications_replace {stamp : Stamp} {release old : Release} {p : Plugin}
    (hold : p.release? release.version = some old) (hpub : release.publication = old.publication) :
    (p.replace stamp release).publications = p.publications := by
  show (release.settle stamp _).map Release.publication = _
  rw [publications_settle]
  unfold publications
  unfold release? at hold
  generalize p.releases = releases at hold
  induction releases with
  | nil => cases hold
  | cons r rest ih =>
      unfold setRelease
      by_cases he : r.version = release.version
      · rw [List.find?_cons_of_pos (by simpa using he)] at hold
        cases hold
        rw [if_pos he, List.map_cons, hpub, List.map_cons]
      · rw [List.find?_cons_of_neg (by simpa using he)] at hold
        rw [if_neg he, List.map_cons, ih hold, List.map_cons]

theorem publications_drop (version : String) (p : Plugin) :
    (p.drop version).publications = p.publications.filter (·.version ≠ version) := by
  unfold publications drop
  rw [List.filter_map]
  rfl

theorem publications_mergedInto (current candidate : Plugin) :
    (current.mergedInto candidate).publications
      = current.publications ++ candidate.publications :=
  List.map_append

end Plugin

/-! ## Records stay well formed -/

namespace Release

theorem WellFormed.stamped {r : Release} (h : r.WellFormed) (stamp : Stamp) :
    (r.stamped stamp).WellFormed := ⟨h.trimmed, h.flagged, h.undeclared⟩

theorem WellFormed.withPreference {r : Release} (h : r.WellFormed) (preferred : Bool) :
    (r.withPreference preferred).WellFormed := ⟨h.trimmed, rfl, h.undeclared⟩

theorem WellFormed.settle {stamp : Stamp} {written : Release} {releases : List Release}
    (h : ∀ r ∈ releases, r.WellFormed) : ∀ r ∈ written.settle stamp releases, r.WellFormed := by
  rw [settle_eq_map]
  intro r hr
  obtain ⟨r', hr', rfl⟩ := List.mem_map.mp hr
  have hwf := h r' hr'
  split
  · exact hwf
  · unfold yieldTo
    split
    · exact (hwf.withPreference false).stamped stamp
    · exact hwf

end Release

namespace Plugin

theorem mem_setRelease {version : String} {release r : Release} {releases : List Release}
    (h : r ∈ setRelease version release releases) : r = release ∨ r ∈ releases := by
  induction releases with
  | nil => exact .inl (List.mem_singleton.mp h)
  | cons first rest ih =>
      unfold setRelease at h
      split at h
      · rcases List.mem_cons.mp h with rfl | h
        · exact .inl rfl
        · exact .inr (List.mem_cons_of_mem _ h)
      · rcases List.mem_cons.mp h with rfl | h
        · exact .inr List.mem_cons_self
        · exact (ih h).imp_right (List.mem_cons_of_mem _)

/-- A record is well formed as long as its releases are. -/
theorem WellFormed.withReleases {p : Plugin} (h : p.WellFormed) {releases : List Release}
    (hr : ∀ r ∈ releases, r.WellFormed) : ({ p with releases } : Plugin).WellFormed :=
  ⟨h.named, h.encoded, hr, h.undeclared⟩

theorem WellFormed.withoutPreference {p : Plugin} (h : p.WellFormed) :
    p.withoutPreference.WellFormed := by
  refine h.withReleases fun r hr => ?_
  obtain ⟨r', hr', rfl⟩ := List.mem_map.mp hr
  exact (h.releases r' hr').withPreference false

theorem WellFormed.mergedInto {current candidate : Plugin} (h : current.WellFormed)
    (h' : candidate.WellFormed) : (current.mergedInto candidate).WellFormed := by
  refine h'.withReleases fun r hr => ?_
  rcases List.mem_append.mp hr with hr | hr
  · exact h.releases r hr
  · exact h'.releases r hr

theorem WellFormed.append {p : Plugin} (h : p.WellFormed) {release : Release}
    (hr : release.WellFormed) (stamp : Stamp) : (p.append stamp release).WellFormed := by
  refine h.withReleases (Release.WellFormed.settle fun r hm => ?_)
  rcases List.mem_append.mp hm with hm | hm
  · exact h.releases r hm
  · rw [List.mem_singleton.mp hm]
    exact hr

theorem WellFormed.replace {p : Plugin} (h : p.WellFormed) {release : Release}
    (hr : release.WellFormed) (stamp : Stamp) : (p.replace stamp release).WellFormed := by
  refine h.withReleases (Release.WellFormed.settle fun r hm => ?_)
  rcases mem_setRelease hm with rfl | hm
  · exact hr
  · exact h.releases r hm

theorem WellFormed.drop {p : Plugin} (h : p.WellFormed) (version : String) :
    (p.drop version).WellFormed :=
  h.withReleases fun r hr => h.releases r (List.mem_filter.mp hr).1

end Plugin

end PluginRegistry
