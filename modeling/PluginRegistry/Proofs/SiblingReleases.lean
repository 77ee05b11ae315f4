import PluginRegistry.Proofs.ReturnedRecords
import PluginRegistry.Proofs.UniqueVersions
import PluginRegistry.Proofs.Upserting

/-!
# What a change of one release does to its siblings

A release is added, replaced, or given or denied the preference. If it is preferred afterwards, each
of its siblings loses the preference and bears the stamp of the change, whether it was preferred or
not; if it is not, its siblings are not touched. Either way they stay where they are, and so does
what the record tells beside its releases.

The siblings are told by their versions, so this takes versions that are distinct: those of the
record that was stored, and for a new release also those of the record that was accepted.
-/

namespace PluginRegistry

theorem Release.yieldTo_of_preferred {stamp : Stamp} {r written : Release}
    (hr : r.preferredAs = none) (h : written.preferred = true) :
    r.yieldTo stamp written =
      { r with
        preferred := false
        lastModified := some (.utc stamp.time)
        lastModifiedBy := some stamp.actor } := by
  unfold yieldTo
  rw [if_pos h]
  unfold demoted stamped withPreference
  rw [hr]

theorem Release.yieldTo_of_not_preferred {stamp : Stamp} {r written : Release}
    (h : written.preferred = false) : r.yieldTo stamp written = r := by
  unfold yieldTo
  rw [if_neg (by simp [h])]

namespace Plugin

/-! ## One record and the next -/

/-- The record is the old one but for a release that was written, and what its siblings had to
yield. -/
structure ReleaseWritten (stamp : Stamp) (written : Release) (old new : Plugin) : Prop where
  /-- The release is there as it was written. -/
  there : new.release? written.version = some written
  /-- If it is preferred, its siblings are not, and bear the stamp. -/
  demoted : written.preferred = true → ∀ (i : Nat) (r : Release), old.releases[i]? = some r →
    r.version ≠ written.version → new.releases[i]? = some
      { r with
        preferred := false
        lastModified := some (.utc stamp.time)
        lastModifiedBy := some stamp.actor }
  /-- If it is not, they are as before. -/
  untouched : written.preferred = false → ∀ (i : Nat) (r : Release), old.releases[i]? = some r →
    r.version ≠ written.version → new.releases[i]? = some r
  /-- The id is the same. -/
  id : new.id = old.id
  /-- The tag, the description and the provider are the same. -/
  heading : new.heading = old.heading
  /-- The undeclared entries are the same. -/
  extras : new.extras = old.extras

/-- The siblings that yield are told by whether the release is preferred. -/
theorem releaseWritten_of_yieldTo {stamp : Stamp} {written : Release} {p q : Plugin}
    (hp : p.WellFormed) (hwritten : q.release? written.version = some written)
    (hsiblings : ∀ (i : Nat) r, p.releases[i]? = some r → r.version ≠ written.version →
      q.releases[i]? = some (r.yieldTo stamp written))
    (hid : q.id = p.id) (hheading : q.heading = p.heading) (hextras : q.extras = p.extras) :
    ReleaseWritten stamp written p q where
  there := hwritten
  demoted hpref i r hr hne := by
    have hflagged := hp.flagged r (List.mem_of_getElem? hr)
    rw [hsiblings i r hr hne, Release.yieldTo_of_preferred hflagged hpref]
  untouched hpref i r hr hne := by
    rw [hsiblings i r hr hne, Release.yieldTo_of_not_preferred hpref]
  id := hid
  heading := hheading
  extras := hextras

/-- A release that is new comes last, and is the only one of its version. -/
theorem releaseWritten_append {stamp : Stamp} {written : Release} {p : Plugin} (hp : p.WellFormed)
    (h : written.version ∉ p.versions) :
    ReleaseWritten stamp written p (p.append stamp written) := by
  refine releaseWritten_of_yieldTo hp ?_ (fun i r hr _ => ?_) rfl rfl rfl
  · unfold release?
    have hnone : (p.releases.map fun r => r.yieldTo stamp written).find?
        (fun r => decide (r.version = written.version)) = none := by
      rw [List.find?_map, Option.map_eq_none_iff, List.find?_eq_none]
      intro r hr hv
      exact h (mem_versions.mpr ⟨r, hr, by simpa using hv⟩)
    rw [releases_append h, List.find?_append, hnone, Option.none_or]
    simp
  · obtain ⟨hlt, rfl⟩ := List.getElem?_eq_some_iff.mp hr
    rw [releases_append h, List.getElem?_append_left (by simpa using hlt), List.getElem?_map, hr,
      Option.map_some]

/-- A release takes the place of the one of its version. -/
theorem releaseWritten_replace {stamp : Stamp} {written : Release} {p : Plugin} (hp : p.WellFormed)
    (hn : p.versions.Nodup) (hm : written.version ∈ p.versions) :
    ReleaseWritten stamp written p (p.replace stamp written) := by
  refine releaseWritten_of_yieldTo hp (release?_replace stamp written p) (fun i r hr hne => ?_)
    rfl rfl rfl
  rw [releases_replace hn hm, List.getElem?_map, hr, Option.map_some, if_neg hne]

theorem ReleaseWritten.timed {stamp : Stamp} {written : Release} {p q : Plugin}
    (h : ReleaseWritten stamp written p q) (row : Row) :
    ReleaseWritten stamp written p (q.timed row) :=
  ⟨h.there, h.demoted, h.untouched, h.id, h.heading, h.extras⟩

/-! ## The record that is kept after a change of the preference -/

/-- With distinct versions, a change of the preference gives or denies the preference to a release
under the stamp of the change, or leaves the release as it is. -/
theorem releases_preferred (stamp : Stamp) (flag : Bool) {p : Plugin} {release : Release}
    (hn : p.versions.Nodup) (hmem : release ∈ p.releases) :
    ∃ change : Release → Release,
      (p.replace stamp ((release.withPreference flag).stamped stamp)).releases
        = p.releases.map change ∧
      ∀ r ∈ p.releases, change r = r ∨
        ∃ flag, change r = (r.withPreference flag).stamped stamp := by
  refine ⟨_, releases_replace hn (mem_versions.mpr ⟨release, hmem, rfl⟩), fun r hr => ?_⟩
  split
  · rename_i hversion
    rw [List.inj_on_of_nodup_map hn hr hmem hversion]
    exact .inr ⟨flag, rfl⟩
  · unfold Release.yieldTo
    split
    · exact .inr ⟨false, rfl⟩
    · exact .inl rfl

/-- **A change of the preference is kept as it is written.** Nothing gets lost where the body in
place is alike, and nothing changes where the body is written and read again. -/
theorem overwrittenBy_preferred {p : Plugin} {release : Release} {stamp : Stamp} {flag : Bool}
    (hp : p.WellFormed) (hsteady : p.restored = p) (hn : p.versions.Nodup)
    (hmem : release ∈ p.releases) (row : Row) :
    p.overwrittenBy ((p.timed row).replace stamp ((release.withPreference flag).stamped stamp)) =
      p.replace stamp ((release.withPreference flag).stamped stamp) := by
  obtain ⟨change, hreleases, hchange⟩ := releases_preferred stamp flag hn hmem
  unfold overwrittenBy
  split
  · -- where the body is alike, each release is alike to the one that it comes from
    rename_i halike
    have hlike : List.Forall₂ _ (p.replace stamp _).releases p.releases := releases_of_alike halike
    rw [hreleases, List.forall₂_map_left_iff, List.forall₂_same] at hlike
    have hsame : p.releases.map change = p.releases := by
      conv_rhs => rw [← List.map_id p.releases]
      refine List.map_congr_left fun r hr => ?_
      have hr' := hlike r hr
      rcases hchange r hr with he | ⟨flag', he⟩
      · exact he
      · rw [he] at hr' ⊢
        exact Release.preferred_of_alike (hp.flagged r hr) hr'
    exact congrArg (fun releases => { p with releases }) (hreleases.trans hsame).symm
  · -- the releases were read before, so they do not change when they are read again
    have hread : ∀ r ∈ p.releases, r.restored = r := by
      have h : p.releases.map Release.restored = p.releases := congrArg Plugin.releases hsteady
      conv_rhs at h => rw [← List.map_id p.releases]
      exact List.map_inj_left.mp h
    have hsame : (p.replace stamp ((release.withPreference flag).stamped stamp)).releases.map
        Release.restored =
          (p.replace stamp ((release.withPreference flag).stamped stamp)).releases := by
      rw [hreleases, List.map_map]
      refine List.map_congr_left fun r hr => ?_
      rcases hchange r hr with he | ⟨flag', he⟩
      · exact (congrArg Release.restored he).trans ((hread r hr).trans he.symm)
      · rw [Function.comp_apply, he]
        conv_rhs => rw [← hread r hr]
        rfl
    calc ((p.timed row).replace stamp ((release.withPreference flag).stamped stamp)).restored
        = { p.restored with
            releases := (p.replace stamp
              ((release.withPreference flag).stamped stamp)).releases.map Release.restored } := rfl
      _ = p.replace stamp ((release.withPreference flag).stamped stamp) := by
          rw [hsame, hsteady]
          rfl

end Plugin

namespace Registry

open PluginRegistry.Action

variable {σ : Type} {w w₁ w' : World σ}

/-! ## The operations -/

/-- A record that is validated and written is given with its times. -/
theorem answer_of_validated {r : Registry σ} {now : CivilTime} {id : String} {q parent : Plugin}
    {after : Plugin → Action σ Plugin} (ht : ∃ t, w₁.table = some t)
    (hafter : ∀ written {b w₂ w₃}, (after written).start w₂ = (.ok b, w₃) →
      b = written ∧ w₂.SameRecords w₃)
    (h : (r.validate q >>= fun _ => Catalog.update r.timing now id q >>= after).start w₁
      = (.ok parent, w')) :
    r.Accepts q ∧ ∃ row, parent = q.timed row := by
  rw [start_bind_eq_ok] at h
  obtain ⟨_, w₂, hvalid, h⟩ := h
  have hk := (keeps_validate _ _).of_start hvalid
  rw [start_bind_eq_ok] at h
  obtain ⟨written, w₃, hupdate, h⟩ := h
  obtain ⟨t, ht⟩ := ht
  obtain ⟨row, _, _, _, _, _, _, _, _, rfl⟩ := Catalog.update_eq_ok (hk.table.trans ht) hupdate
  exact ⟨validate_eq_ok hvalid, { row with lastModified := now }, (hafter _ h).1⟩

/-- The record that is found is the one that was there at the start. -/
theorem eq_of_find {r : Registry σ} {id : String} {p current : Plugin} (hs : w.Sound)
    (hp : w.plugin? id = some p) (hk : w.Kept w₁)
    (h : (r.find id).start w₁ = (.ok current, w')) :
    current = p ∧ p.WellFormed ∧ ∃ t, w'.table = some t := by
  obtain ⟨row, held, hrow, hheld, rfl, hk'⟩ := find_eq_ok (hk.sameRecords.sound hs) h
  rw [hk.sameRecords.row?] at hrow
  cases (World.plugin?_of_row hrow hheld).symm.trans hp
  exact ⟨rfl, hheld.timed, (hk.trans hk').table ▸ hs.table⟩

theorem createRelease_writes {r : Registry σ} (hr : Validator.uniqueVersions ∈ r.validators)
    (hs : w.Sound) {id : String} {p : Plugin} (hp : w.plugin? id = some p) {now : CivilTime}
    {user : Option String} {release : Release} {parent : Plugin}
    (h : (r.createRelease now id release user).start w = (.ok parent, w')) :
    parent.versions = p.versions ++ [release.version] ∧
      p.ReleaseWritten ⟨now, r.actorAt user w.asked⟩
        (release.stamped ⟨now, r.actorAt user w.asked⟩) parent := by
  unfold createRelease at h
  obtain ⟨w₁, hk, h⟩ := prepared_eq_ok h
  rw [start_bind_eq_ok] at h
  obtain ⟨current, w₂, hfind, h⟩ := h
  obtain ⟨rfl, hwf, ht⟩ := eq_of_find hs hp hk hfind
  obtain ⟨haccepts, row, rfl⟩ := answer_of_validated ht (fun _ _ _ _ => noted_eq_ok) h
  -- the record that was accepted has distinct versions, so the new one was not there
  have hnodup := nodup_of_accepts hr haccepts
  rw [Plugin.versions_append, List.nodup_append] at hnodup
  have hnew : (release.stamped ⟨now, r.actorAt user w.asked⟩).version ∉ current.versions :=
    fun hold => hnodup.2.2 _ hold _ List.mem_cons_self rfl
  exact ⟨Plugin.versions_append _ _ _, (Plugin.releaseWritten_append hwf hnew).timed row⟩

theorem upsertRelease_writes {r : Registry σ} (hs : w.Sound) {id : String} {p : Plugin}
    (hp : w.plugin? id = some p) (hn : p.versions.Nodup) {now : CivilTime} {user : Option String}
    {release : Release} {parent : Plugin}
    (h : (r.upsertRelease now id release user).start w = (.ok parent, w')) :
    parent.versions = p.versions ∧
      p.ReleaseWritten ⟨now, r.actorAt user w.asked⟩
        (release.stamped ⟨now, r.actorAt user w.asked⟩) parent := by
  unfold upsertRelease at h
  obtain ⟨w₁, hk, h⟩ := prepared_eq_ok h
  rw [start_bind_eq_ok] at h
  obtain ⟨current, w₂, hfind, h⟩ := h
  obtain ⟨rfl, hwf, ht⟩ := eq_of_find hs hp hk hfind
  split at h
  · cases h
  · rename_i hfound
    have hold : (release.stamped ⟨now, r.actorAt user w.asked⟩).version ∈ current.versions := by
      rw [Release.version_stamped, ← Plugin.release?_isSome, Option.isSome_iff_ne_none]
      exact fun hnone => hfound (Option.isNone_iff_eq_none.mpr hnone)
    obtain ⟨_, row, rfl⟩ := answer_of_validated ht (fun _ _ _ _ => noted_eq_ok) h
    exact ⟨Plugin.versions_replace hold, (Plugin.releaseWritten_replace hwf hn hold).timed row⟩

theorem preferRelease_writes {r : Registry σ} (hs : w.Sound) {id version : String} {p : Plugin}
    (hp : w.plugin? id = some p) (hn : p.versions.Nodup) {now : CivilTime} {user : Option String}
    {flag : Bool} {answer : Release}
    (h : (r.preferRelease now id version (.bool flag) user).start w = (.ok answer, w')) :
    ∃ old found, p.release? version = some old ∧
      answer = (old.withPreference flag).stamped ⟨now, r.actorAt user w.asked⟩ ∧
      w'.plugin? id = some found ∧ found.versions = p.versions ∧
      p.ReleaseWritten ⟨now, r.actorAt user w.asked⟩ answer found := by
  obtain ⟨hreply, hs'⟩ := preferRelease_replies hs h
  cases hreply with
  | unchanged htarget _ => cases htarget
  | @revised _ _ _ row held q stamp htarget hstamp hrevision _ _ hrewritten hreply hactor =>
      cases htarget
      obtain rfl : stamp = ⟨now, r.actorAt user w.asked⟩ := by
        obtain ⟨time, actor⟩ := stamp
        exact congrArg₂ Stamp.mk hstamp hactor
      obtain ⟨old, hold, rfl⟩ := Option.map_eq_some_iff.mp hrevision
      obtain ⟨_, hold', hanswer⟩ := Option.map_eq_some_iff.mp hreply
      cases hold.symm.trans hold'
      cases hanswer
      -- the record that is kept is the one that was found, with the change
      have hheld := hrewritten.held
      cases (World.plugin?_of_row hrewritten.before hheld).symm.trans hp
      obtain ⟨row', hrow', hheld', _⟩ := hrewritten.after
      obtain ⟨hmem, rfl⟩ := Plugin.release?_eq_some hold
      have hversion : ((old.withPreference flag).stamped ⟨now, r.actorAt user w.asked⟩).version
          ∈ (held.timed row).versions := Plugin.mem_versions.mpr ⟨old, hmem, rfl⟩
      have hkept : row'.Holds (held.replace ⟨now, r.actorAt user w.asked⟩
          ((old.withPreference flag).stamped ⟨now, r.actorAt user w.asked⟩)) := by
        rw [← Plugin.overwrittenBy_preferred hheld.wellFormed hheld.steady hn hmem row]
        exact hheld'
      exact ⟨old, _, hold, rfl, World.plugin?_of_row hrow' hkept, Plugin.versions_replace hversion,
        (Plugin.releaseWritten_replace hheld.timed hn hversion).timed row'⟩

/-- **What a change of one release does to its siblings.** Where unique versions are asked for, let
a record be found with distinct versions. If a release is added to it, the record that is given has
the old versions and then the new one; if a release is replaced, it has the old versions; and the
release is there as it was given, under the stamp of the change. If a release is given or denied the
preference, what is answered and kept is the old release with that flag and that stamp, among the
old versions. In each case the siblings of a release that is preferred now are the old ones without
the preference and under the stamp of the change, and those of one that is not preferred are the old
ones. Each is where it was, and what the record tells beside its releases is as before. -/
theorem siblings_of_change (r₀ r : Registry σ) (hr : Validator.uniqueVersions ∈ r.validators)
    (hw : r₀.Reached w) {id : String} {p : Plugin} (hp : w.plugin? id = some p)
    (hn : p.versions.Nodup) (now : CivilTime) (user : Option String) :
    (∀ release parent w', (r.createRelease now id release user).start w = (.ok parent, w') →
      parent.versions = p.versions ++ [release.version] ∧
      p.ReleaseWritten ⟨now, r.actorAt user w.asked⟩
        (release.stamped ⟨now, r.actorAt user w.asked⟩) parent) ∧
    (∀ release parent w', (r.upsertRelease now id release user).start w = (.ok parent, w') →
      parent.versions = p.versions ∧
      p.ReleaseWritten ⟨now, r.actorAt user w.asked⟩
        (release.stamped ⟨now, r.actorAt user w.asked⟩) parent) ∧
    ∀ version flag answer w',
      (r.preferRelease now id version (.bool flag) user).start w = (.ok answer, w') →
      ∃ old found, p.release? version = some old ∧
        answer = (old.withPreference flag).stamped ⟨now, r.actorAt user w.asked⟩ ∧
        w'.plugin? id = some found ∧ found.versions = p.versions ∧
        p.ReleaseWritten ⟨now, r.actorAt user w.asked⟩ answer found :=
  ⟨fun _ _ _ => createRelease_writes hr hw.sound hp,
    fun _ _ _ => upsertRelease_writes hw.sound hp hn,
    fun _ _ _ _ => preferRelease_writes hw.sound hp hn⟩

/-- What a registry holds once the first of three releases was preferred. -/
def shelf : World Unit :=
  (plain none).run
    [⟨.early 1, .upsert (.bare "acme.a" [.bare "1.0.0" false, .bare "2.0.0" false,
      .bare "3.0.0" false])⟩,
    ⟨.early 2, .preferRelease "acme.a" (.str "1.0.0") (.bool true) (some "ann")⟩]
    (.blank ())

/-- If the second release is preferred next, the first one yields, and so does the third one, which
was not preferred. -/
theorem siblings_of_change_shelf :
    ∃ answer w' found,
      ((plain none).preferRelease (.early 3) "acme.a" "2.0.0" (.bool true) (some "bob")).start shelf
        = (.ok answer, w') ∧
      w'.plugin? "acme.a" = some found ∧ found.versions = ["1.0.0", "2.0.0", "3.0.0"] ∧
      ∃ third, found.releases[2]? = some third ∧ third.preferred = false ∧
        third.lastModified = some (.utc (.early 3)) ∧ third.lastModifiedBy = some "bob" := by
  have hreached : (plain none).Reached shelf := by
    refine Reached.run (.empty ⟨rfl, rfl⟩) ?_
    decide
  have hstored :
      ((shelf.plugin? "acme.a").map fun p => (p.versions, p.releases[2]?.map (·.version)))
        = some (["1.0.0", "2.0.0", "3.0.0"], some "3.0.0") := by
    decide +kernel
  obtain ⟨p, hp, hstored⟩ := Option.map_eq_some_iff.mp hstored
  have hversions : p.versions = ["1.0.0", "2.0.0", "3.0.0"] := congrArg Prod.fst hstored
  obtain ⟨third, hthird, hversion⟩ := Option.map_eq_some_iff.mp (congrArg Prod.snd hstored)
  have hn : p.versions.Nodup := hversions ▸ by decide
  have hok : (((plain none).preferRelease (.early 3) "acme.a" "2.0.0" (.bool true)
      (some "bob")).start shelf).1.isOk := by
    decide +kernel
  rcases h : ((plain none).preferRelease (.early 3) "acme.a" "2.0.0" (.bool true)
    (some "bob")).start shelf with ⟨failure | answer, w'⟩
  · rw [h] at hok
    cases hok
  · obtain ⟨old, found, hold, rfl, hfound, hkept, hwritten⟩ :=
      (siblings_of_change (plain none) (plain none) List.mem_cons_self hreached hp hn
        (.early 3) (some "bob")).2.2 _ _ _ _ h
    have hother : third.version ≠ old.version := by
      rw [hversion, (Plugin.release?_eq_some hold).2]
      decide
    exact ⟨_, w', found, rfl, hfound, hkept.trans hversions, _,
      hwritten.demoted rfl 2 third hthird hother, rfl, rfl, rfl⟩

end Registry

end PluginRegistry
