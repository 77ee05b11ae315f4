import PluginRegistry.Proofs.Atomicity
import PluginRegistry.Proofs.JsonValues

/-!
# What an operation gives is what is stored

An operation that writes a record gives it with the times that its row has from then on. If the
record was made it is given as it was read back. If it was written over another one it is given as
it was to be written, and there is a difference if the body in place was left as it is: a body that
is alike to the new one may have a flag where the new one has a number, or a number of another kind.
`World.Overlooks` says so, and it is the only difference that there can be. It takes an upsert that
brings no release, or a release that replaces one of the same moment. Records are compared by their
bodies and times, which is all of them but for undeclared entries under the name of a time.
-/

namespace PluginRegistry

/-! ## Bodies are written as themselves -/

theorem Json.steady_ofText? (t : Option String) : Document.Steady (.ofText? t) := by
  cases t with
  | none => rfl
  | some t => rfl

theorem Release.steady_toJson {r : Release} (h : r.WellFormed) : Document.Steady r.toJson := by
  have hmembers : ∀ m ∈ r.members, Document.Steady m.2 := by
    simp only [members, List.forall_mem_cons]
    exact ⟨rfl, Json.steady_ofText? _, Json.steady_ofText? _, Json.steady_ofText? _,
      Json.steady_ofText? _, Json.steady_ofText? _, Document.steady_payload _,
      Json.steady_ofText? _, Json.steady_ofText? _, List.forall_mem_nil _⟩
  refine Json.steady_obj.mpr ⟨?_, fun m hm => ?_⟩
  · exact Extras.nodup_written (by decide : (fields.map Schema.Field.key).Nodup) h.undeclared
      (List.Sublist.refl _)
  · rcases List.mem_append.mp hm with hm | hm
    · obtain ⟨member, hmember, rfl⟩ := List.mem_map.mp hm
      exact hmembers member hmember
    · obtain ⟨extra, _, rfl⟩ := List.mem_map.mp hm
      exact Document.steady_payload extra.2

theorem Plugin.steady_body {p : Plugin} (h : p.WellFormed) : Document.Steady p.body := by
  have hreleases : Document.Steady (.arr (p.releases.map Release.toJson)) := by
    refine Json.steady_arr.mpr fun value hvalue => ?_
    obtain ⟨release, hrelease, rfl⟩ := List.mem_map.mp hvalue
    exact Release.steady_toJson (h.releases release hrelease)
  have hmembers : ∀ m ∈ p.bodyMembers, Document.Steady m.2 := by
    simp only [bodyMembers, List.forall_mem_cons]
    exact ⟨rfl, Json.steady_ofText? _, Json.steady_ofText? _, Json.steady_ofText? _, hreleases,
      List.forall_mem_nil _⟩
  refine Json.steady_obj.mpr ⟨?_, fun m hm => ?_⟩
  · exact Extras.nodup_written (by decide : (fields.map Schema.Field.key).Nodup)
      (Extras.undeclared_filter h.undeclared _) p.sublist_keys_bodyMembers
  · rcases List.mem_append.mp hm with hm | hm
    · exact hmembers m hm
    · obtain ⟨extra, _, rfl⟩ := List.mem_map.mp hm
      exact Document.steady_payload extra.2

theorem Plugin.same_body {p : Plugin} (h : p.WellFormed) : p.body.same p.body :=
  Json.same_self _ (steady_body h)

/-! ## Records that are kept -/

/-- A change of the preference that leaves a release alike leaves it as it was. -/
theorem Release.preferred_of_alike {release : Release} (h : release.preferredAs = none)
    {stamp : Stamp} {flag : Bool}
    (halike : ((release.withPreference flag).stamped stamp).toJson.alike release.toJson) :
    (release.withPreference flag).stamped stamp = release := by
  have hmark : flag = release.preferred := congrArg Prod.snd (mark_of_alike rfl h halike)
  obtain ⟨htime, huser⟩ := stamp_of_alike halike
  obtain ⟨version, date, requires, url, sha512sum, releaseNotes, preferred, preferredAs,
    lastModified, lastModifiedBy, extras⟩ := release
  cases hmark
  cases h
  cases htime
  cases huser
  rfl

namespace Plugin

theorem same_overwrittenBy {p q : Plugin} (hq : q.WellFormed) :
    (p.overwrittenBy q).body.same q.body ↔ ¬(q.body.alike p.body ∧ ¬p.body.same q.body) := by
  unfold overwrittenBy
  split
  · rename_i halike
    simp [halike]
  · rename_i halike
    rw [body_restored]
    simp [halike, same_body hq]

theorem release?_restored (version : String) (p : Plugin) :
    p.restored.release? version = (p.release? version).map Release.restored := by
  unfold release? restored
  rw [List.find?_map]
  rfl

/-- A release whose preference was changed is the first of its version in the record that is
kept. -/
theorem release?_overwrittenBy {p q : Plugin} {version : String} {release written : Release}
    {stamp : Stamp} {flag : Bool} (hp : p.WellFormed) (hsteady : p.restored = p)
    (hq : q.WellFormed) (hrelease : p.release? version = some release)
    (hwritten : written = (release.withPreference flag).stamped stamp)
    (hfirst : q.release? version = some written) :
    (p.overwrittenBy q).release? version = some written := by
  unfold overwrittenBy
  split
  · -- the stored release is alike, so it is what was to be written
    rename_i halike
    obtain ⟨old, hold, hlike⟩ := release?_of_alike hq hp halike hfirst
    cases hrelease.symm.trans hold
    have hflagged := hp.flagged release (release?_eq_some hrelease).1
    rw [hwritten] at hlike ⊢
    rw [Release.preferred_of_alike hflagged hlike, hrelease]
  · -- the stored release was read back, so it does not change when it is read back again
    have hrestored : release.restored = release := by
      have h := release?_restored version p
      rw [hsteady, hrelease, Option.map_some] at h
      exact (Option.some.inj h).symm
    rw [release?_restored, hfirst, Option.map_some, hwritten]
    conv_rhs => rw [← hrestored]
    rfl

end Plugin

/-! ## What is overlooked -/

namespace Operation

/-- The operation writes a record and gives it. -/
def GivesRecord : Operation → Prop
  | .upsert _ | .createRelease _ _ _ | .upsertRelease _ _ _ | .deleteRelease _ _ _ => True
  | _ => False

/-- What the operation writes over the record can be alike to it and still be another one. -/
def Resembles (now : CivilTime) (p : Plugin) : Operation → Prop
  | .upsert candidate => candidate.releases = []
  | .upsertRelease _ release _ =>
    ∃ old, p.release? release.version = some old ∧ old.lastModified = some (.utc now)
  | _ => False

/-- **A new body that is alike to the one in place is either the same or one of few.** -/
theorem resembles_of_alike {op : Operation} {p q : Plugin} {stamp : Stamp} (hop : op.Proper)
    (hgives : op.GivesRecord) (hp : p.WellFormed) (hq : q.WellFormed)
    (hrevision : op.revision? stamp p = some q) (halike : q.body.alike p.body) :
    q = p ∨ op.Resembles stamp.time p := by
  have hmarks := Plugin.marks_of_alike hq hp halike
  have hversions : q.versions = p.versions := by
    rw [Plugin.versions_eq_marks, hmarks, Plugin.versions_eq_marks]
  cases op with
  | upsert candidate =>
      -- the releases of the candidate come after the stored ones, so there are none
      cases (Option.ite_none_right_eq_some.mp hrevision).2
      rw [Plugin.versions_mergedInto, Plugin.versions_withoutPreference] at hversions
      exact .inr (List.map_eq_nil_iff.mp (List.append_right_eq_self.mp hversions))
  | createRelease id release user =>
      -- a release that is added makes a difference
      cases hrevision
      rw [Plugin.versions_append] at hversions
      simp at hversions
  | upsertRelease id release user =>
      -- the release that is replaced was changed at the same moment
      cases (Option.ite_none_right_eq_some.mp hrevision).2
      obtain ⟨old, hold, hlike⟩ := Plugin.release?_of_alike hq hp halike
        (Plugin.release?_replace stamp (release.stamped stamp) p)
      exact .inr ⟨old, hold, (Release.stamp_of_alike hlike).1.symm⟩
  | deleteRelease id version user =>
      -- no release was of the version that was removed
      obtain ⟨version, rfl⟩ := hop
      cases hrevision
      have hreleases : (p.releases.filter (·.version ≠ version)) = p.releases := by
        rw [Plugin.versions_drop, List.filter_eq_self] at hversions
        exact List.filter_eq_self.mpr fun r hr => hversions r.version (List.mem_map_of_mem hr)
      refine .inl ?_
      unfold Plugin.drop
      rw [hreleases]
  | _ => exact hgives.elim

/-- The record that is given is the one that was to be written under the id of its target. -/
theorem given_of_revision? {op : Operation} {p q : Plugin} {stamp : Stamp} {row : Row} {id : String}
    {answer : Answer} (hop : op.Proper) (hgives : op.GivesRecord) (htarget : op.target? = some id)
    (hid : p.id = id) (hrevision : op.revision? stamp (p.timed row) = some q)
    (hreply : op.reply? stamp row p q = some answer) :
    q.id = id ∧ answer = .plugin (q.timed { row with lastModified := stamp.time }) := by
  cases op with
  | upsert candidate =>
      cases htarget
      cases (Option.ite_none_right_eq_some.mp hrevision).2
      cases hreply
      exact ⟨rfl, rfl⟩
  | createRelease _ release user =>
      cases htarget
      cases hrevision
      cases hreply
      exact ⟨hid, rfl⟩
  | upsertRelease _ release user =>
      cases htarget
      cases (Option.ite_none_right_eq_some.mp hrevision).2
      cases hreply
      exact ⟨hid, rfl⟩
  | deleteRelease _ version user =>
      obtain ⟨version, rfl⟩ := hop
      cases htarget
      cases hrevision
      cases hreply
      exact ⟨hid, rfl⟩
  | _ => exact hgives.elim

end Operation

/-- The record that is given. -/
def Answer.plugin? : Answer → Option Plugin
  | .plugin p => some p
  | _ => none

namespace World

variable {σ : Type}

/-- The body in place is alike to that of the record that was given, but it is not the same: it
stays as it is. -/
def Overlooks (w : World σ) (given : Plugin) : Prop :=
  ∃ old, w.plugin? given.id = some old ∧ given.body.alike old.body ∧ ¬old.body.same given.body

theorem overlooks_iff {w : World σ} {given old : Plugin} (h : w.plugin? given.id = some old) :
    w.Overlooks given ↔ given.body.alike old.body ∧ ¬old.body.same given.body := by
  unfold Overlooks
  rw [h]
  simp

theorem not_overlooks {w : World σ} {given : Plugin} (h : w.row? given.id = none) :
    ¬w.Overlooks given := by
  rintro ⟨old, hold, _⟩
  unfold plugin? at hold
  rw [h] at hold
  cases hold

end World

namespace Registry

variable {σ : Type}

/-- The record that was given after a change, next to the one that is found then. -/
structure Confirms (r : Registry σ) (w w' : World σ) (returned found : Plugin) : Prop where
  /-- It is found under the id of the one that was given. -/
  finds : ∃ w'', (r.find returned.id).start w' = (.ok found, w'')
  /-- The record was made at the same time. -/
  created : found.createTs = returned.createTs
  /-- It was changed at the same time. -/
  modified : found.lastModified = returned.lastModified
  /-- The body is the same, unless it was overlooked. -/
  same : found.body.same returned.body ↔ ¬w.Overlooks returned

variable {r : Registry σ} {w w' : World σ} {now : CivilTime}

/-- A record that is made is given as it is read from its row. -/
theorem confirms_made {q : Plugin} {row : Row} (hs' : w'.Sound) (hmade : w.Made now q w')
    (hrow : w'.row? q.id = some row) :
    r.Confirms w w' (q.restored.timed row) (q.restored.timed row) := by
  obtain ⟨row', hrow', hq, _⟩ := hmade.after
  cases hrow.symm.trans hrow'
  obtain ⟨w'', _, hfind⟩ := find_of_row r hs' hrow hq
  have hnew : ¬w.Overlooks (q.restored.timed row) := World.not_overlooks hmade.before
  exact ⟨⟨w'', hfind⟩, rfl, rfl, iff_of_true (Plugin.same_body hq.timed) hnew⟩

/-- A record that is written over another one is given with the times of its row. -/
theorem confirms_rewritten {id : String} {row : Row} {p q : Plugin} (hs' : w'.Sound)
    (hq : q.WellFormed) (hid : q.id = id) (hrewritten : w.Rewritten now id row p q w') :
    ∃ found, r.Confirms w w' (q.timed { row with lastModified := now }) found := by
  obtain ⟨row', hrow', hkept, _, hcreated, hmodified⟩ := hrewritten.after
  obtain ⟨w'', _, hfind⟩ := find_of_row r hs' hrow' hkept
  have hold : w.plugin? (q.timed { row with lastModified := now }).id = some (p.timed row) :=
    hid ▸ World.plugin?_of_row hrewritten.before hrewritten.held
  refine ⟨_, ⟨w'', hid ▸ hfind⟩, ?_, ?_, ?_⟩
  · exact congrArg (fun t => some (Moment.utc t)) hcreated
  · exact congrArg (fun t => some (Moment.utc t)) hmodified
  · exact (Plugin.same_overwrittenBy hq).trans (not_congr (World.overlooks_iff hold).symm)

/-- What is overlooked resembles what it was written over. -/
theorem resembles_of_overlooks {op : Operation} {stamp : Stamp} {id : String} {row : Row}
    {p q given : Plugin} (hop : op.Proper) (hgives : op.GivesRecord) (hq : q.WellFormed)
    (hrow : w.row? id = some row) (hp : row.Holds p)
    (hrevision : op.revision? stamp (p.timed row) = some q) (hid : given.id = id)
    (hbody : given.body = q.body) (hover : w.Overlooks given) :
    ∃ old, w.plugin? given.id = some old ∧ op.Resembles stamp.time old := by
  have hold : w.plugin? given.id = some (p.timed row) := hid ▸ World.plugin?_of_row hrow hp
  obtain ⟨halike, hother⟩ := (World.overlooks_iff hold).mp hover
  rw [hbody] at halike hother
  refine ⟨_, hold, ?_⟩
  -- the body in place is another one, so the new record is not the old one
  rcases Operation.resembles_of_alike hop hgives hp.timed hq hrevision halike with rfl | h
  · exact absurd (Plugin.same_body hq) hother
  · exact h

/-- A release whose preference was changed is found as it was written. -/
theorem find_preferred {id version : String} {row : Row} {p q : Plugin} {release : Release}
    {stamp : Stamp} {flag : Bool} (hs' : w'.Sound) (hq : q.WellFormed)
    (hrewritten : w.Rewritten now id row p q w') (hrelease : p.release? version = some release)
    (hreplaced : q = (p.timed row).replace stamp ((release.withPreference flag).stamped stamp)) :
    ∃ found w'', (r.find id).start w' = (.ok found, w'') ∧
      found.release? version = some ((release.withPreference flag).stamped stamp) := by
  obtain ⟨row', hrow', hkept, _⟩ := hrewritten.after
  obtain ⟨w'', _, hfind⟩ := find_of_row r hs' hrow' hkept
  have hp := hrewritten.held
  have hversion : release.version = version := (Plugin.release?_eq_some hrelease).2
  refine ⟨_, w'', hfind, ?_⟩
  refine Plugin.release?_overwrittenBy hp.wellFormed hp.steady hq hrelease rfl ?_
  rw [hreplaced, ← hversion]
  exact Plugin.release?_replace stamp ((release.withPreference flag).stamped stamp) _

/-- **What an operation gives is what is stored, but for what was overlooked.** A record that is
given is found under its id with the same times and the same body, unless the body in place was
alike to the new one without being the same. Neither a record that is made nor one that loses a
release or gets a new one is overlooked. A release that is given after a change of its preference is
found as it is. -/
theorem returned_is_stored (hw : r.Reached w) {op : Operation} (hop : op.Proper) {answer : Answer}
    (h : (r.perform now op).start w = (.ok answer, w')) :
    (op.GivesRecord → ∃ returned found, answer = .plugin returned ∧
      op.target? = some returned.id ∧ r.Confirms w w' returned found ∧
      (w.Overlooks returned → ∃ old, w.plugin? returned.id = some old ∧ op.Resembles now old)) ∧
    ∀ id version preference user, op = .preferRelease id (.str version) preference user →
      ∃ written found w'', answer = .release written ∧
        (r.find id).start w' = (.ok found, w'') ∧ found.release? version = some written := by
  obtain ⟨hreply, hs'⟩ := perform_replies hw.sound hop h
  cases hreply with
  | unchanged htarget _ =>
      refine ⟨fun hgives => ?_, fun id version preference user he => ?_⟩
      · cases op with
        | upsert _ | createRelease _ _ _ | upsertRelease _ _ _ | deleteRelease _ _ _ =>
            cases htarget
        | _ => exact hgives.elim
      · rw [he] at htarget
        cases htarget
  | made _ hmade hrow =>
      refine ⟨fun _ => ⟨_, _, rfl, rfl, confirms_made hs' hmade hrow, fun hover => ?_⟩, nofun⟩
      exact absurd hover (World.not_overlooks hmade.before)
  | @revised op answer id row p q stamp htarget hstamp hrevision _ hq hrewritten hreply =>
      subst hstamp
      have hp := hrewritten.held
      have hid : p.id = id := hp.id.trans (World.id_of_row? hrewritten.before)
      refine ⟨fun hgives => ?_, ?_⟩
      · obtain ⟨hqid, rfl⟩ :=
          Operation.given_of_revision? hop hgives htarget hid hrevision hreply
        obtain ⟨found, hfound⟩ := confirms_rewritten (r := r) hs' hq hqid hrewritten
        exact ⟨_, found, rfl, hqid ▸ htarget, hfound, fun hover =>
          resembles_of_overlooks hop hgives hq hrewritten.before hp hrevision hqid rfl hover⟩
      · rintro id version preference user rfl
        obtain ⟨_, flag, rfl⟩ := hop
        cases htarget
        obtain ⟨release, hrelease, rfl⟩ := Option.map_eq_some_iff.mp hrevision
        obtain ⟨_, hrelease', rfl⟩ := Option.map_eq_some_iff.mp hreply
        cases hrelease.symm.trans hrelease'
        have hfound : ∃ found w'', (r.find id).start w' = (.ok found, w'') ∧
            found.release? version = some ((release.withPreference flag).stamped stamp) :=
          find_preferred hs' hq hrewritten hrelease rfl
        obtain ⟨found, w'', hfind, hfirst⟩ := hfound
        exact ⟨_, found, w'', rfl, hfind, hfirst⟩
  | removed _ => exact ⟨fun hgives => hgives.elim, nofun⟩

/-- A plugin with one undeclared entry. -/
def marked (value : Json) : Plugin :=
  { Plugin.bare "acme.a" [] with extras := [("x", value.toDocument)] }

/-- What a registry holds once a plugin was made with a number. -/
def numbered : World Unit :=
  (plain none).run [⟨default, .upsert (marked (.int 1))⟩] (.blank ())

/-- With a flag where the number was, the record that is given is not the one that is found. -/
theorem returned_is_stored_flagForNumber :
    ∃ returned found w' w'',
      ((plain none).perform default (.upsert (marked (.bool true)))).start numbered
        = (.ok (.plugin returned), w') ∧
      ((plain none).find returned.id).start w' = (.ok found, w'') ∧
      ¬found.body.same returned.body := by
  have hreached : (plain none).Reached numbered := by
    refine Reached.run (.empty ⟨rfl, rfl⟩) ?_
    decide
  have hproper : (Operation.upsert (marked (.bool true))).Proper := by decide
  have hover : (((plain none).perform default (.upsert (marked (.bool true)))).start
      numbered).1.toOption.any (fun answer => answer.plugin?.any fun given =>
        (numbered.plugin? given.id).any fun old =>
          given.body.alike old.body && !old.body.same given.body) := by
    decide +kernel
  rcases h : ((plain none).perform default (.upsert (marked (.bool true)))).start numbered
    with ⟨failure | answer, w'⟩
  · rw [h] at hover
    cases hover
  · obtain ⟨returned, found, rfl, _, hconfirms, _⟩ :=
      (returned_is_stored hreached hproper h).1 trivial
    obtain ⟨w'', hfind⟩ := hconfirms.finds
    refine ⟨returned, found, w', w'', rfl, hfind, fun hsame => hconfirms.same.mp hsame ?_⟩
    simp only [h, Except.toOption, Answer.plugin?, Option.any_some] at hover
    cases hold : numbered.plugin? returned.id with
    | none => simp [hold] at hover
    | some old => exact ⟨old, hold, by simpa [hold] using hover⟩

end Registry

end PluginRegistry
