import PluginRegistry.Proofs.Upserting
import PluginRegistry.Proofs.CascadingDelete

/-!
# Which releases are accepted

A release is added if its version is new, and it replaces another one if its version is there. The
validators look at the whole record every time. Since they accept every stored record, what they
object to can only be in the release that comes in, so its version and its requirements decide: the
id of the record, the other versions and the other requirements have been accepted before. What is
left are releases that cannot be copied or written.
-/

namespace PluginRegistry

/-! ## What decides about a release -/

namespace Release

/-- Every requirement of the release can be read. -/
def Legible (x : Release) : Prop :=
  ∀ entry ∈ x.requirementEntries, (Requirement.parse? entry).isSome

/-- What is undeclared in the release can be written. -/
def Writable (x : Release) : Prop := x.extras.writeFault? = none

/-- It depends on nothing but what a release publishes. -/
def IsPublic (Q : Release → Prop) : Prop := ∀ x : Release, Q x.publication ↔ Q x

theorem isPublic_legible : IsPublic Legible := fun _ => Iff.rfl

theorem isPublic_writable : IsPublic Writable := fun _ => Iff.rfl

theorem writeFault?_of_flagged {x : Release} (h : x.preferredAs = none) :
    x.writeFault? = x.extras.writeFault? := by
  unfold writeFault? statedPreference
  rw [h]
  rfl

variable {Q : Release → Prop}

theorem IsPublic.stamped (hQ : IsPublic Q) (stamp : Stamp) (x : Release) :
    Q (x.stamped stamp) ↔ Q x := by
  rw [← hQ, publication_stamped, hQ]

/-- What releases publish is the same once siblings have yielded. -/
theorem IsPublic.forall_settle (hQ : IsPublic Q) (stamp : Stamp) (written : Release)
    (releases : List Release) :
    (∀ x ∈ written.settle stamp releases, Q x) ↔ ∀ x ∈ releases, Q x := by
  have hpublished : ∀ items : List Release,
      (∀ x ∈ items, Q x) ↔ ∀ x ∈ items.map publication, Q x := by
    intro items
    rw [List.forall_mem_map]
    exact forall₂_congr fun x _ => (hQ x).symm
  rw [hpublished, Plugin.publications_settle, ← hpublished]

end Release

namespace Plugin

variable {Q : Release → Prop} {p : Plugin}

theorem mem_setRelease_self (version : String) (release : Release) (releases : List Release) :
    release ∈ setRelease version release releases := by
  induction releases with
  | nil => exact List.mem_singleton_self release
  | cons first rest ih =>
      unfold setRelease
      split
      · exact List.mem_cons_self
      · exact List.mem_cons_of_mem _ ih

theorem forall_setRelease {version : String} {release : Release} {releases : List Release}
    (h : ∀ x ∈ releases, Q x) :
    (∀ x ∈ setRelease version release releases, Q x) ↔ Q release := by
  constructor
  · exact fun hset => hset release (mem_setRelease_self version release releases)
  · intro hrelease x hx
    rcases mem_setRelease hx with rfl | hx
    · exact hrelease
    · exact h x hx

/-- Where the releases of a record are public in some way, they are with one more if that is. -/
theorem forall_append (hQ : Release.IsPublic Q) (h : ∀ x ∈ p.releases, Q x) (stamp : Stamp)
    (release : Release) :
    (∀ x ∈ (p.append stamp (release.stamped stamp)).releases, Q x) ↔ Q release := by
  show (∀ x ∈ Release.settle stamp _ (p.releases ++ [release.stamped stamp]), Q x) ↔ _
  rw [hQ.forall_settle, List.forall_mem_append, List.forall_mem_singleton, hQ.stamped,
    and_iff_right h]

/-- So they are with one in the place of another. -/
theorem forall_replace (hQ : Release.IsPublic Q) (h : ∀ x ∈ p.releases, Q x) (stamp : Stamp)
    (release : Release) :
    (∀ x ∈ (p.replace stamp (release.stamped stamp)).releases, Q x) ↔ Q release := by
  show (∀ x ∈ Release.settle stamp _ (setRelease _ _ p.releases), Q x) ↔ _
  rw [hQ.forall_settle, forall_setRelease h, hQ.stamped]

/-- A record over a stored one can be written if its releases can. -/
theorem writeBody_of_releases {q : Plugin} {body : Json} (hp : p.writeBody = .ok body)
    (hq : q.WellFormed) (hextras : q.extras = p.extras) :
    (∃ body, q.writeBody = .ok body) ↔ ∀ x ∈ q.releases, x.Writable := by
  have hwritten : q.bodyExtras.writeFault? = none := by
    unfold bodyExtras
    rw [hextras]
    exact (writeBody_eq_ok.mp hp).2.1
  have hreleases : (∀ x ∈ q.releases, x.writeFault? = none) ↔ ∀ x ∈ q.releases, x.Writable := by
    refine forall₂_congr fun x hx => ?_
    rw [Release.writeFault?_of_flagged (hq.flagged x hx)]
    rfl
  rw [← hreleases]
  constructor
  · rintro ⟨body, hbody⟩
    exact (writeBody_eq_ok.mp hbody).1
  · exact fun h => ⟨_, writeBody_eq_ok.mpr ⟨h, hwritten, rfl⟩⟩

theorem writable_of_writeBody {body : Json} (hp : p.writeBody = .ok body) (hwf : p.WellFormed) :
    ∀ x ∈ p.releases, x.Writable :=
  (writeBody_of_releases hp hwf rfl).mp ⟨body, hp⟩

end Plugin

namespace Registry

open PluginRegistry.Action

variable {σ : Type} {r : Registry σ} {p : Plugin}

/-! ## What the validators object to -/

/-- What the rules of the registry ask for together. -/
theorem accepts_iff (hr : r.validators = Validator.all) :
    r.Accepts p ↔ ("" ∉ p.versions ∧ p.versions.Nodup) ∧ Validator.isCanonicalId p.id ∧
      ∀ x ∈ p.releases, x.Legible := by
  have hall : Validator.all =
      [Validator.uniqueVersions, Validator.canonicalId, Validator.requirementFormat] := rfl
  unfold Accepts Validator.report
  rw [hr, hall, List.flatMap_eq_nil_iff, List.forall_mem_cons, List.forall_mem_cons,
    List.forall_mem_singleton, Validator.uniqueVersions_check, Validator.canonicalId_check,
    Validator.requirementFormat_check]
  rfl

/-- One more release is accepted if its version is one that is not there. -/
theorem accepts_append (hr : r.validators = Validator.all) (hp : r.Accepts p) (stamp : Stamp)
    (x : Release) : r.Accepts (p.append stamp (x.stamped stamp)) ↔
      (x.version ≠ "" ∧ x.version ∉ p.versions) ∧ x.Legible := by
  obtain ⟨⟨hpresent, hnodup⟩, hid, hlegible⟩ := (accepts_iff hr).mp hp
  have hversions : ("" ∉ (p.append stamp (x.stamped stamp)).versions ∧
      (p.append stamp (x.stamped stamp)).versions.Nodup) ↔
        x.version ≠ "" ∧ x.version ∉ p.versions := by
    rw [Plugin.versions_append, Release.version_stamped, List.nodup_append_comm,
      List.singleton_append, List.nodup_cons, List.mem_append, List.mem_singleton, not_or,
      and_iff_right hpresent, and_iff_left hnodup, eq_comm]
  rw [accepts_iff hr, hversions, Plugin.forall_append Release.isPublic_legible hlegible]
  exact and_congr_right fun _ => and_iff_right hid

/-- A release in the place of the one of its version is accepted if its requirements are. -/
theorem accepts_replace (hr : r.validators = Validator.all) (hp : r.Accepts p) (stamp : Stamp)
    {x : Release} (hx : x.version ∈ p.versions) :
    r.Accepts (p.replace stamp (x.stamped stamp)) ↔ x.Legible := by
  obtain ⟨hversions, hid, hlegible⟩ := (accepts_iff hr).mp hp
  have hsame : (p.replace stamp (x.stamped stamp)).versions = p.versions :=
    Plugin.versions_replace hx
  rw [accepts_iff hr, hsame, Plugin.forall_replace Release.isPublic_legible hlegible,
    and_iff_right hversions]
  exact and_iff_right hid

/-! ## How a release comes in -/

/-- The actor is asked for, the release is copied, and the record is read. -/
def approach (r : Registry σ) (user : Option String) (id : String) (x : Release)
    (next : String → Plugin → Action σ Plugin) : Action σ Plugin :=
  r.actor user >>= fun actor => requireCopy x.extras.canCopy >>= fun _ => r.find id >>= next actor

/-- A record is validated and written. -/
def submit (r : Registry σ) (now : CivilTime) (q : Plugin) (after : Plugin → Action σ Plugin) :
    Action σ Plugin :=
  r.validate q >>= fun _ => Catalog.update r.timing now q.id q >>= after

/-- The change is noted, and what was written is given. -/
def noting (topic : Log.Topic) (action actor id version : String) (written : Plugin) :
    Action σ Plugin :=
  audit topic action actor id (.str version) >>= fun _ => pure written

theorem total_noting (topic : Log.Topic) (action actor id version : String) (written : Plugin) :
    (noting topic action actor id version written : Action σ Plugin).Total :=
  (total_audit _ _ _ _ _).bind fun _ => total_pure _

theorem createRelease_eq (r : Registry σ) (now : CivilTime) (id : String) (x : Release)
    (user : Option String) :
    r.createRelease now id x user = r.approach user id x fun actor current =>
      r.submit now (current.append ⟨now, actor⟩ (x.stamped ⟨now, actor⟩))
        (noting .releaseCreated "create_release" actor id x.version) := rfl

theorem upsertRelease_eq (r : Registry σ) (now : CivilTime) (id : String) (x : Release)
    (user : Option String) :
    r.upsertRelease now id x user = r.approach user id x fun actor current =>
      if (current.release? x.version).isNone then Action.refuse (.noRelease id x.version)
      else r.submit now (current.replace ⟨now, actor⟩ (x.stamped ⟨now, actor⟩))
        (noting .releaseReplaced "upsert_release" actor id x.version) := by
  unfold upsertRelease approach
  refine congrArg _ (funext fun actor => ?_)
  dsimp only
  refine congrArg _ (funext fun _ => congrArg _ (funext fun current => ?_))
  by_cases hnone : (current.release? x.version).isNone
  · rw [if_pos hnone]
    exact (if_pos hnone).trans rfl
  · rw [if_neg hnone]
    exact (if_neg hnone).trans rfl

theorem approach_start (r : Registry σ) (user : Option String) (id : String) (x : Release)
    (next : String → Plugin → Action σ Plugin) (w : World σ) :
    ∃ actor w₁, w.Kept w₁ ∧ (r.approach user id x next).start w =
      (requireCopy x.extras.canCopy >>= fun _ => r.find id >>= next actor).start w₁ := by
  obtain ⟨actor, w₁, hk, hactor⟩ := (total_actor r user).of_keeps (keeps_actor r user) w
  refine ⟨actor, w₁, hk, ?_⟩
  unfold approach
  rw [start_bind, hactor]

theorem approach_of_nesting (r : Registry σ) (user : Option String) (id : String) {x : Release}
    (hcopy : ¬x.extras.canCopy) (next : String → Plugin → Action σ Plugin) (w : World σ) :
    ∃ w', w.Kept w' ∧ (r.approach user id x next).start w = (.error .nesting, w') := by
  obtain ⟨actor, w₁, hk, hstart⟩ := r.approach_start user id x next w
  refine ⟨w₁, hk, ?_⟩
  rw [hstart, requireCopy, if_neg hcopy]
  rfl

theorem approach_of_copy (r : Registry σ) (user : Option String) (id : String) {x : Release}
    (hcopy : x.extras.canCopy) (next : String → Plugin → Action σ Plugin) (w : World σ) :
    ∃ actor w₁, w.Kept w₁ ∧
      (r.approach user id x next).start w = (r.find id >>= next actor).start w₁ := by
  obtain ⟨actor, w₁, hk, hstart⟩ := r.approach_start user id x next w
  refine ⟨actor, w₁, hk, ?_⟩
  rw [hstart, requireCopy, if_pos hcopy]
  rfl

/-- A request fails as the search for its plugin does. -/
theorem approach_of_unfound (r : Registry σ) (user : Option String) {id : String} {x : Release}
    (hcopy : x.extras.canCopy) (next : String → Plugin → Action σ Plugin) {w : World σ}
    {failure : Failure} (hfind : ∀ w₁, w.Kept w₁ →
      ∃ w₂, w₁.Kept w₂ ∧ (r.find id).start w₁ = (.error failure, w₂)) :
    ∃ w', w.Kept w' ∧ (r.approach user id x next).start w = (.error failure, w') := by
  obtain ⟨actor, w₁, hk, hstart⟩ := r.approach_of_copy user id hcopy next w
  obtain ⟨w₂, hk', hfailed⟩ := hfind w₁ hk
  refine ⟨w₂, hk.trans hk', ?_⟩
  rw [hstart, start_bind, hfailed]

theorem approach_of_row (r : Registry σ) (user : Option String) {id : String} {x : Release}
    (hcopy : x.extras.canCopy) (next : String → Plugin → Action σ Plugin) {w : World σ}
    (hs : w.Sound) {row : Row} (hrow : w.row? id = some row) (hp : row.Holds p) :
    ∃ actor w₁, w.Kept w₁ ∧
      (r.approach user id x next).start w = (next actor (p.timed row)).start w₁ := by
  obtain ⟨actor, w₁, hk, hstart⟩ := r.approach_of_copy user id hcopy next w
  obtain ⟨w₂, hk', hfind⟩ := r.find_of_row (hk.sameRecords.sound hs)
    ((hk.sameRecords.row? id).trans hrow) hp
  refine ⟨actor, w₂, hk.trans hk', ?_⟩
  rw [hstart, start_bind, hfind]

end Registry

/-! ## What becomes of a request -/

/-- **What becomes of a request** to bring in a release. -/
structure Action.Verdict {σ : Type} (request : Action σ Plugin) (w : World σ) (inOrder : Prop)
    (x : Release) : Prop where
  /-- It succeeds if it is in order and the release can be written. -/
  succeeds : (∃ answer w', request.start w = (.ok answer, w')) ↔ inOrder ∧ x.Writable
  /-- If it is not in order there is something that the validators object to. -/
  refused : ¬inOrder → ∃ report w', report.violations ≠ [] ∧ w.Kept w' ∧
    request.start w = (.error (.error (.validation report)), w')
  /-- If it is, a release that cannot be written fails for that. -/
  unwritten : inOrder → ¬x.Writable →
    ∃ fault w', w.Kept w' ∧ request.start w = (.error (.unwritable fault), w')

namespace Catalog

open PluginRegistry.Action

variable {σ : Type}

/-- A record that cannot be written fails for that. -/
theorem update_of_fault {w : World σ} {t : Table} (ht : w.table = some t) (timing : Timing)
    (now : CivilTime) {plugin : Plugin} {row : Row} {fault : WriteFault}
    (hoctets : textFault? plugin.id = none) (hrow : t.find? plugin.id = some row)
    (hfault : plugin.writeBody = .error fault) :
    ∃ w', w.Kept w' ∧
      (update timing now plugin.id plugin).start w = (.error (.unwritable fault), w') := by
  obtain ⟨w₁, hk, hget⟩ := get_of_table ht timing hoctets
  rw [hrow] at hget
  have hown : (requireOwnId plugin.id plugin : Action σ Unit) = pure () := if_pos rfl
  have hstart : ∃ w', (update timing now plugin.id plugin).start w
      = (.error (.unwritable fault), w') := by
    unfold update
    rw [hown, pure_bind, start_session, start_bind, hget]
    dsimp only
    rw [hfault]
    exact ⟨_, rfl⟩
  obtain ⟨w', hstart⟩ := hstart
  exact ⟨w', (update_calm_and_atomic timing now plugin.id plugin).2 w _ w' hstart, hstart⟩

end Catalog

namespace Registry

open PluginRegistry.Action

variable {σ : Type} {r : Registry σ} {p : Plugin}

/-- A request that submits a record over a stored one. -/
theorem verdict_of_submit {now : CivilTime} {request : Action σ Plugin} {w w₁ : World σ}
    (hs : w.Sound) {id : String} {row : Row} (hrow : w.row? id = some row) (hp : row.Holds p)
    (hk : w.Kept w₁) {q : Plugin} {after : Plugin → Action σ Plugin}
    (hstart : request.start w = (r.submit now q after).start w₁)
    (hafter : ∀ written, (after written).Total) (hid : q.id = p.id) (htag : q.service = p.service)
    {inOrder : Prop} (haccepts : r.Accepts q ↔ inOrder) {x : Release}
    (hwritable : (∃ body, q.writeBody = .ok body) ↔ x.Writable) :
    request.Verdict w inOrder x := by
  obtain ⟨t, ht⟩ := hs.table
  have ht₁ := hk.table.trans ht
  -- the row that is written over is the one that was read
  have hfound : t.find? q.id = some row := by
    rw [← World.row?_of_table ht, hid, hp.id, World.id_of_row? hrow, hrow]
  have hoctets : textFault? q.id = none := hid ▸ hp.wellFormed.textFault?_id
  have hvalid : inOrder → request.start w =
      (Catalog.update r.timing now q.id q >>= after).start w₁ := by
    intro h
    rw [hstart, submit, start_bind, validate_of_accepts (haccepts.mpr h)]
  have hrefused : ¬inOrder → ∃ report w', report.violations ≠ [] ∧ w.Kept w' ∧
      request.start w = (.error (.error (.validation report)), w') := by
    intro h
    have hobjected := mt haccepts.mp h
    obtain ⟨w', hk', hvalidate⟩ := validate_of_not_accepts hobjected w₁
    refine ⟨_, w', hobjected, hk.trans hk', ?_⟩
    rw [hstart, submit, start_bind, hvalidate]
  have hunwritten : inOrder → ¬x.Writable →
      ∃ fault w', w.Kept w' ∧ request.start w = (.error (.unwritable fault), w') := by
    intro h hnot
    cases hbody : q.writeBody with
    | ok body => exact absurd (hwritable.mp ⟨body, hbody⟩) hnot
    | error fault =>
        obtain ⟨w', hk', hupdate⟩ := Catalog.update_of_fault ht₁ r.timing now hoctets hfound hbody
        refine ⟨fault, w', hk.trans hk', ?_⟩
        rw [hvalid h, start_bind, hupdate]
  refine ⟨⟨?_, ?_⟩, hrefused, hunwritten⟩
  · -- either of the failures would be another outcome
    rintro ⟨answer, w', hok⟩
    by_contra hnot
    rcases not_and_or.mp hnot with h | h
    · obtain ⟨_, _, _, _, hfailed⟩ := hrefused h
      cases hok.symm.trans hfailed
    · by_cases horder : inOrder
      · obtain ⟨_, _, _, hfailed⟩ := hunwritten horder h
        cases hok.symm.trans hfailed
      · obtain ⟨_, _, _, _, hfailed⟩ := hrefused horder
        cases hok.symm.trans hfailed
  · rintro ⟨horder, hx⟩
    obtain ⟨body, hbody⟩ := hwritable.mpr hx
    obtain ⟨written, w₂, hupdate⟩ := Catalog.update_of_row ht₁ r.timing now hoctets hfound hbody
      (htag ▸ hp.tag) (hk.readOnly.trans hs.writable)
    obtain ⟨answer, w', hdone⟩ := hafter written w₂
    refine ⟨answer, w', ?_⟩
    rw [hvalid horder]
    exact start_bind_eq_ok.mpr ⟨written, w₂, hupdate, hdone⟩

/-- The rules of the registry accept a stored record as it is read. -/
theorem accepts_of_row (hr : r.validators = Validator.all) {w : World σ} (hw : r.Reached w)
    {id : String} {row : Row} (hrow : w.row? id = some row) (hp : row.Holds p) :
    r.Accepts (p.timed row) := by
  have hrules : ∀ rule ∈ r.validators, rule.IsHereditary := by
    rw [hr]
    exact fun rule hrule => Validator.isHereditary_of_mem_builtIn hrule
  exact (hw.accepts hrules id row p hrow hp).within hrules ⟨rfl, List.Sublist.refl _⟩

/-- A new release is in order if there is a version, it is new, and the requirements can be read. -/
theorem verdict_createRelease (hr : r.validators = Validator.all) {w : World σ} (hw : r.Reached w)
    (now : CivilTime) {id : String} {x : Release} (hx : x.WellFormed) (hcopy : x.extras.canCopy)
    (user : Option String) {row : Row} (hrow : w.row? id = some row) (hp : row.Holds p) :
    (r.createRelease now id x user).Verdict w
      ((x.version ≠ "" ∧ x.version ∉ p.versions) ∧ x.Legible) x := by
  rw [createRelease_eq]
  obtain ⟨actor, w₁, hk, hstart⟩ := r.approach_of_row user hcopy (fun actor current =>
    r.submit now (current.append ⟨now, actor⟩ (x.stamped ⟨now, actor⟩))
      (noting .releaseCreated "create_release" actor id x.version)) hw.sound hrow hp
  have hq := hp.timed.append (hx.stamped ⟨now, actor⟩) ⟨now, actor⟩
  refine verdict_of_submit hw.sound hrow hp hk hstart (total_noting _ _ _ _ _) rfl rfl
    (accepts_append hr (accepts_of_row hr hw hrow hp) ⟨now, actor⟩ x) ?_
  rw [Plugin.writeBody_of_releases hp.body hq rfl]
  exact Plugin.forall_append Release.isPublic_writable
    (Plugin.writable_of_writeBody hp.body hp.wellFormed) ⟨now, actor⟩ x

/-- What is done with a release in the place of another one. -/
theorem upsertRelease_of_row (r : Registry σ) (now : CivilTime) {w : World σ} (hs : w.Sound)
    {id : String} {x : Release} (hcopy : x.extras.canCopy) (user : Option String) {row : Row}
    (hrow : w.row? id = some row) (hp : row.Holds p) :
    ∃ actor w₁, w.Kept w₁ ∧ (r.upsertRelease now id x user).start w =
      (if x.version ∈ p.versions then
        r.submit now ((p.timed row).replace ⟨now, actor⟩ (x.stamped ⟨now, actor⟩))
          (noting .releaseReplaced "upsert_release" actor id x.version)
      else Action.refuse (.noRelease id x.version)).start w₁ := by
  rw [upsertRelease_eq]
  obtain ⟨actor, w₁, hk, hstart⟩ := r.approach_of_row user hcopy (fun actor current =>
    if (current.release? x.version).isNone then Action.refuse (.noRelease id x.version)
    else r.submit now (current.replace ⟨now, actor⟩ (x.stamped ⟨now, actor⟩))
      (noting .releaseReplaced "upsert_release" actor id x.version)) hs hrow hp
  refine ⟨actor, w₁, hk, hstart.trans ?_⟩
  have hmissing : ((p.timed row).release? x.version).isNone ↔ x.version ∉ p.versions := by
    rw [Option.isNone_iff_eq_none, ← Option.not_isSome_iff_eq_none, Plugin.release?_isSome]
    rfl
  by_cases hversion : x.version ∈ p.versions
  · rw [if_pos hversion, if_neg fun h => hmissing.mp h hversion]
  · rw [if_neg hversion, if_pos (hmissing.mpr hversion)]

/-- A release of a version that is there is in order if its requirements can be read. -/
theorem verdict_upsertRelease (hr : r.validators = Validator.all) {w : World σ} (hw : r.Reached w)
    (now : CivilTime) {id : String} {x : Release} (hx : x.WellFormed) (hcopy : x.extras.canCopy)
    (user : Option String) {row : Row} (hrow : w.row? id = some row) (hp : row.Holds p)
    (hversion : x.version ∈ p.versions) :
    (r.upsertRelease now id x user).Verdict w x.Legible x := by
  obtain ⟨actor, w₁, hk, hstart⟩ := r.upsertRelease_of_row now hw.sound hcopy user hrow hp
  have hq := hp.timed.replace (hx.stamped ⟨now, actor⟩) ⟨now, actor⟩
  rw [if_pos hversion] at hstart
  refine verdict_of_submit hw.sound hrow hp hk hstart (total_noting _ _ _ _ _) rfl rfl
    (accepts_replace hr (accepts_of_row hr hw hrow hp) ⟨now, actor⟩ hversion) ?_
  rw [Plugin.writeBody_of_releases hp.body hq rfl]
  exact Plugin.forall_replace Release.isPublic_writable
    (Plugin.writable_of_writeBody hp.body hp.wellFormed) ⟨now, actor⟩ x

/-- There is no release to be replaced. -/
theorem upsertRelease_of_missing (r : Registry σ) (now : CivilTime) {w : World σ} (hs : w.Sound)
    {id : String} {x : Release} (hcopy : x.extras.canCopy) (user : Option String) {row : Row}
    (hrow : w.row? id = some row) (hp : row.Holds p) (hversion : x.version ∉ p.versions) :
    ∃ w', w.Kept w' ∧ (r.upsertRelease now id x user).start w =
      (.error (.error (.noRelease id x.version)), w') := by
  obtain ⟨actor, w₁, hk, hstart⟩ := r.upsertRelease_of_row now hs hcopy user hrow hp
  rw [if_neg hversion] at hstart
  exact ⟨w₁, hk, hstart⟩

/-- A registry with all its rules, without artifacts. -/
def strict : Registry Unit := { plain none with validators := Validator.all }

/-- What it holds once a plugin was made with a release. -/
def published : World Unit :=
  strict.run [⟨default, .upsert (.bare "acme.a" [.bare "1.0.0" false])⟩] (.blank ())

theorem reached_published : strict.Reached published := by
  refine Reached.run (.empty ⟨rfl, rfl⟩) ?_
  decide

theorem versions_published : (published.plugin? "acme.a").map Plugin.versions = some ["1.0.0"] := by
  decide +kernel

/-- A document of a release with one undeclared value. -/
def releaseWith (value : Json) : Json := .obj [("version", .str "2.0.0"), ("x", value)]

theorem read_releaseWith (value : Json) : Release.read (releaseWith value).toDocument =
    .ok { Release.bare "2.0.0" false with extras := [("x", value.toDocument)] } := rfl

end Registry

end PluginRegistry
