import PluginRegistry.Proofs.History
import PluginRegistry.Proofs.RecordChanges

/-!
# Looking a version up and replacing it

A version means the first release that has it, both where it is looked up and where its release is
replaced, so the two form a lens even on a record in which versions are repeated. Everything follows
from where the replacement goes: the list is split in front of the first release of the version, and
only that release changes; without one, the replacement comes last.
-/

namespace PluginRegistry.Plugin

variable {version : String} {release old : Release} {releases before after : List Release}

/-! ## Where a replacement goes -/

/-- The releases up to the first one of a version, that one, and those behind it. -/
theorem exists_first (h : version ∈ releases.map Release.version) :
    ∃ before old after, releases = before ++ old :: after ∧
      (∀ r ∈ before, r.version ≠ version) ∧ old.version = version := by
  obtain ⟨r, hr, hversion⟩ := List.mem_map.mp h
  obtain ⟨old, hold⟩ : ∃ old, releases.find? (·.version = version) = some old := by
    rw [← Option.isSome_iff_exists, List.find?_isSome]
    exact ⟨r, hr, by simpa using hversion⟩
  obtain ⟨hfound, before, after, rfl, hbefore⟩ := List.find?_eq_some_iff_append.mp hold
  exact ⟨before, old, after, rfl, fun r hr => by simpa using hbefore r hr, by simpa using hfound⟩

/-- The first release of a version is the one that is replaced. -/
theorem setRelease_append (release : Release) (hbefore : ∀ r ∈ before, r.version ≠ version)
    (hold : old.version = version) :
    setRelease version release (before ++ old :: after) = before ++ release :: after := by
  induction before with
  | nil => simp [setRelease, hold]
  | cons r rest ih =>
      obtain ⟨hr, hrest⟩ := List.forall_mem_cons.mp hbefore
      rw [List.cons_append, setRelease, if_neg hr, ih hrest, List.cons_append]

/-- Without a release of the version the new one comes last. -/
theorem setRelease_of_notMem (release : Release) (h : version ∉ releases.map Release.version) :
    setRelease version release releases = releases ++ [release] := by
  induction releases with
  | nil => rfl
  | cons r rest ih =>
      rw [List.map_cons, List.mem_cons, not_or] at h
      rw [setRelease, if_neg (Ne.symm h.1), ih h.2, List.cons_append]

/-! ## What is found afterwards -/

theorem find?_setRelease (hrelease : release.version = version) :
    (setRelease version release releases).find? (·.version = version) = some release := by
  have hnone : ∀ rs : List Release, (∀ r ∈ rs, r.version ≠ version) →
      rs.find? (·.version = version) = none := by
    intro rs hrs
    simpa using hrs
  by_cases hm : version ∈ releases.map Release.version
  · obtain ⟨before, old, after, rfl, hbefore, hold⟩ := exists_first hm
    rw [setRelease_append release hbefore hold, List.find?_append, hnone before hbefore]
    simp [hrelease]
  · rw [setRelease_of_notMem release hm, List.find?_append,
      hnone releases fun r hr hv => hm (List.mem_map.mpr ⟨r, hr, hv⟩)]
    simp [hrelease]

/-- A release of another version is found as before. -/
theorem find?_setRelease_of_ne {other : String} (hrelease : release.version = version)
    (hother : other ≠ version) :
    (setRelease version release releases).find? (·.version = other) =
      releases.find? (·.version = other) := by
  by_cases hm : version ∈ releases.map Release.version
  · obtain ⟨before, old, after, rfl, hbefore, hold⟩ := exists_first hm
    rw [setRelease_append release hbefore hold, List.find?_append, List.find?_append,
      List.find?_cons_of_neg (by simpa [hrelease] using hother.symm),
      List.find?_cons_of_neg (by simpa [hold] using hother.symm)]
  · rw [setRelease_of_notMem release hm, List.find?_append]
    simp [hrelease, hother.symm]

/-- To put back what was found changes nothing. -/
theorem setRelease_of_find? (h : releases.find? (·.version = version) = some release) :
    setRelease version release releases = releases := by
  obtain ⟨hfound, before, after, rfl, hbefore⟩ := List.find?_eq_some_iff_append.mp h
  exact setRelease_append release (fun r hr => by simpa using hbefore r hr) (by simpa using hfound)

/-- Of two replacements the second one counts. -/
theorem setRelease_setRelease {first : Release} (hfirst : first.version = version) :
    setRelease version release (setRelease version first releases) =
      setRelease version release releases := by
  by_cases hm : version ∈ releases.map Release.version
  · obtain ⟨before, old, after, rfl, hbefore, hold⟩ := exists_first hm
    rw [setRelease_append first hbefore hold, setRelease_append release hbefore hfirst,
      setRelease_append release hbefore hold]
  · have hbefore : ∀ r ∈ releases, r.version ≠ version :=
      fun r hr hv => hm (List.mem_map.mpr ⟨r, hr, hv⟩)
    rw [setRelease_of_notMem first hm, setRelease_append release hbefore hfirst,
      setRelease_of_notMem release hm]

theorem map_version_setRelease (hrelease : release.version = version) :
    (setRelease version release releases).map Release.version =
      if version ∈ releases.map Release.version then releases.map Release.version
      else releases.map Release.version ++ [version] := by
  subst hrelease
  split
  · rename_i hm
    exact versions_setRelease hm
  · rename_i hm
    rw [setRelease_of_notMem release hm, List.map_append, List.map_singleton]

/-- A release that is not the first one of the version stays where it is. -/
theorem getElem?_setRelease {r : Release} {i : Nat} (hr : releases[i]? = some r)
    (hother : r.version ≠ version ∨ ∃ j < i, ∃ earlier, releases[j]? = some earlier ∧
      earlier.version = version) :
    (setRelease version release releases)[i]? = some r := by
  have hlt : i < releases.length := (List.getElem?_eq_some_iff.mp hr).1
  by_cases hm : version ∈ releases.map Release.version
  · obtain ⟨before, old, after, rfl, hbefore, hold⟩ := exists_first hm
    rw [setRelease_append release hbefore hold]
    rcases Nat.lt_trichotomy i before.length with hi | rfl | hi
    · rw [List.getElem?_append_left hi] at hr ⊢
      exact hr
    · -- this is the first one, and nothing before it has the version
      exfalso
      simp only [List.getElem?_append_right (Nat.le_refl _), Nat.sub_self, List.getElem?_cons_zero,
        Option.some.injEq] at hr
      subst hr
      rcases hother with hne | ⟨j, hj, earlier, hearlier, hversion⟩
      · exact hne hold
      · rw [List.getElem?_append_left hj] at hearlier
        exact hbefore earlier (List.mem_of_getElem? hearlier) hversion
    · obtain ⟨k, hk⟩ : ∃ k, i - before.length = k + 1 := ⟨i - before.length - 1, by omega⟩
      rw [List.getElem?_append_right (by omega), hk, List.getElem?_cons_succ] at hr ⊢
      exact hr
  · rw [setRelease_of_notMem release hm, List.getElem?_append_left hlt, hr]

/-! ## The lens -/

/-- A record is another one with a release as its first one of a version. -/
structure SetAt (p : Plugin) (version : String) (release : Release) (q : Plugin) : Prop where
  /-- The release is found under the version. -/
  found : q.release? version = some release
  /-- What is found under other versions is as before. -/
  others : ∀ other ≠ version, q.release? other = p.release? other
  /-- The versions are the old ones, and the new one at the end if it was not there. -/
  versions : q.versions = if version ∈ p.versions then p.versions else p.versions ++ [version]
  /-- Every release but the first one of the version is where it was. -/
  kept : ∀ (i : Nat) (r : Release), p.releases[i]? = some r →
    (r.version ≠ version ∨ ∃ j < i, ∃ earlier, p.releases[j]? = some earlier ∧
      earlier.version = version) → q.releases[i]? = some r
  /-- The rest of the record is as before. -/
  rest : { q with releases := p.releases } = p

theorem setAt_setReleaseByVersion (p : Plugin) (hrelease : release.version = version) :
    p.SetAt version release (p.setReleaseByVersion version release) where
  found := find?_setRelease hrelease
  others _ hother := find?_setRelease_of_ne hrelease hother
  versions := map_version_setRelease hrelease
  kept _ _ := getElem?_setRelease
  rest := rfl

/-- **Looking a version up and replacing its release form a lens**, whether versions are repeated or
not. The release that was set is found under its version, nothing else changes, to set what was
found changes nothing at all, and of two that are set the second one counts. -/
theorem setReleaseByVersion_lens (p : Plugin) {version : String} {release : Release}
    (hrelease : release.version = version) :
    p.SetAt version release (p.setReleaseByVersion version release) ∧
    (∀ found, p.release? version = some found → p.setReleaseByVersion version found = p) ∧
    ∀ first : Release, first.version = version →
      (p.setReleaseByVersion version first).setReleaseByVersion version release =
        p.setReleaseByVersion version release := by
  refine ⟨setAt_setReleaseByVersion p hrelease, fun found hfound => ?_, fun first hfirst => ?_⟩
  · have hsame : setRelease version found p.releases = p.releases := setRelease_of_find? hfound
    unfold setReleaseByVersion
    rw [hsame]
  · have hsame : setRelease version release (setRelease version first p.releases) =
        setRelease version release p.releases := setRelease_setRelease hfirst
    unfold setReleaseByVersion
    dsimp only
    rw [hsame]

/-- A record with a version that is repeated, around another one. -/
def repeated : Plugin :=
  .bare "acme.a" [.bare "1.0.0" false, .bare "2.0.0" false, .bare "1.0.0" true]

/-- The first of the two is replaced, and the second one is still there. -/
theorem setReleaseByVersion_lens_repeated :
    ∃ q, q = repeated.setReleaseByVersion "1.0.0" (.bare "1.0.0" true) ∧
      q.release? "1.0.0" = some (.bare "1.0.0" true) ∧ q.versions = ["1.0.0", "2.0.0", "1.0.0"] ∧
      q.releases[2]? = some (.bare "1.0.0" true) := by
  have hversion : (Release.bare "1.0.0" true).version = "1.0.0" := rfl
  obtain ⟨hset, _⟩ := setReleaseByVersion_lens repeated hversion
  exact ⟨_, rfl, hset.found, hset.versions,
    hset.kept 2 _ rfl (.inr ⟨0, by decide, _, rfl, rfl⟩)⟩

end PluginRegistry.Plugin
