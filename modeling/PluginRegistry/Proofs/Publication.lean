import PluginRegistry.Proofs.UniqueVersions

/-!
# What is published stays

A release that is stored stays as it was published until it is replaced or removed by name. Other
operations on the plugin may change its preference and its stamp, and nothing else of it. Its place
among the releases stays as well: what is left of the releases that were there at some time comes
first, in the order of that time, and the releases that were added since come after.

Every operation writes the whole record again, so this is shown of the record as it is read back: of
what an operation makes of it, and of how little storing it changes.
-/

namespace PluginRegistry

namespace Operation

/-- The operation removes a plugin. -/
def removes (id : String) : Operation → Bool
  | .delete id' _ => id' = id
  | _ => false

/-- The operation removes a version of a plugin. -/
def withdraws (id version : String) : Operation → Bool
  | .deleteRelease id' (.str version') _ => id' = id && version' = version
  | _ => false

/-- The operation replaces a version of a plugin. -/
def replaces (id version : String) : Operation → Bool
  | .upsertRelease id' release _ => id' = id && release.version = version
  | _ => false

/-- The versions that were added to a stored plugin, once the operation succeeded as well. -/
def addTo (id : String) (added : List String) : Operation → List String
  | .upsert candidate => if candidate.id = id then added ++ candidate.versions else added
  | .createRelease id' release _ => if id' = id then added ++ [release.version] else added
  | .deleteRelease id' (.str version) _ =>
    if id' = id then added.filter (· ≠ version) else added
  | _ => added

end Operation

namespace Event

/-- A plugin was removed by one of the events. -/
def removed (id : String) (events : List Event) : Bool :=
  events.any fun e => e.succeeded && e.operation.removes id

/-- A version of a plugin was removed by one of the events. -/
def withdrawn (id version : String) (events : List Event) : Bool :=
  events.any fun e => e.succeeded && e.operation.withdraws id version

/-- A version of a plugin was replaced by one of the events. -/
def replaced (id version : String) (events : List Event) : Bool :=
  events.any fun e => e.succeeded && e.operation.replaces id version

/-- The versions that the events added to a stored plugin and did not remove again, in order. -/
def added (id : String) (events : List Event) : List String :=
  events.foldl (fun added e => if e.succeeded then e.operation.addTo id added else added) []

end Event

namespace Plugin

theorem restored_of_mem_publications {p : Plugin} (h : p.restored = p) {x : Release}
    (hx : x ∈ p.publications) : x.restored = x := by
  obtain ⟨r, hr, rfl⟩ := List.mem_map.mp hx
  have hreleases : p.releases.map Release.restored = p.releases.map fun r => r :=
    (congrArg Plugin.releases h).trans (List.map_id' _).symm
  exact congrArg Release.publication (List.map_inj_left.mp hreleases r hr)

theorem mem_publications_overwrittenBy {p q : Plugin} (h : p.restored = p) {x : Release}
    (hp : x ∈ p.publications) (hq : x ∈ q.publications) :
    x ∈ (p.overwrittenBy q).publications := by
  unfold overwrittenBy
  split
  · exact hp
  · obtain ⟨r, hr, hx⟩ := List.mem_map.mp hq
    -- what is read back of it is published as the same
    have hsame : r.restored.publication = x := by
      rw [← restored_of_mem_publications h hp, ← hx]
      rfl
    exact List.mem_map.mpr ⟨r.restored, List.mem_map_of_mem hr, hsame⟩

end Plugin

namespace Operation

variable {op : Operation} {id : String} {stamp : Stamp} {p q : Plugin}

/-- Versions that were there come first, and those that the operation adds come last. -/
theorem versions_revision? (hop : op.Proper) (htarget : op.target? = some id)
    (h : op.revision? stamp p = some q) {kept added : List String}
    (hp : p.versions = kept ++ added) :
    q.versions = (kept.filter fun v => !op.withdraws id v) ++ op.addTo id added := by
  cases op with
  | upsert candidate =>
      cases htarget
      simp only [Operation.revision?] at h
      split at h
      · cases h
        rw [Plugin.versions_mergedInto, Plugin.versions_withoutPreference, hp]
        simp [withdraws, addTo]
      · cases h
  | createRelease id release user =>
      cases htarget
      cases h
      rw [Plugin.versions_append, hp]
      simp [withdraws, addTo]
  | upsertRelease id release user =>
      simp only [Operation.revision?] at h
      split at h
      · rename_i hmem
        have hmem' : (release.stamped stamp).version ∈ p.versions := hmem
        cases h
        rw [Plugin.versions_replace hmem', hp]
        simp [withdraws, addTo]
      · cases h
  | deleteRelease id version user =>
      obtain ⟨version, rfl⟩ := hop
      cases htarget
      cases h
      rw [Plugin.versions_drop, hp, List.filter_append]
      simp [withdraws, addTo, eq_comm]
  | preferRelease id version preference user =>
      obtain ⟨⟨version, rfl⟩, flag, rfl⟩ := hop
      obtain ⟨release, hrelease, rfl⟩ := Option.map_eq_some_iff.mp h
      obtain ⟨hmem, rfl⟩ := Plugin.release?_eq_some hrelease
      have hversion : ((release.preferAs (.bool flag)).stamped stamp).version ∈ p.versions :=
        Plugin.mem_versions.mpr ⟨release, hmem, rfl⟩
      rw [Plugin.versions_replace hversion, hp]
      simp [withdraws, addTo]
  | _ => cases h

/-- What is published of a version stays unless the operation removes or replaces that version. -/
theorem mem_publications_revision? (hop : op.Proper) (htarget : op.target? = some id)
    (h : op.revision? stamp p = some q) {x : Release} (hx : x ∈ p.publications)
    (hwithdraws : op.withdraws id x.version = false)
    (hreplaces : op.replaces id x.version = false) : x ∈ q.publications := by
  cases op with
  | upsert candidate =>
      simp only [Operation.revision?] at h
      split at h
      · cases h
        rw [Plugin.publications_mergedInto]
        exact List.mem_append_left _ hx
      · cases h
  | createRelease id release user =>
      -- the siblings of a new release may yield, which publishes nothing
      cases h
      rw [Plugin.publications_append]
      exact List.mem_append_left _ hx
  | upsertRelease id release user =>
      simp only [Operation.revision?] at h
      split at h
      · -- only the release of the same version is replaced
        cases htarget
        cases h
        have hother : x.version ≠ (release.stamped stamp).version := by
          intro he
          simp [replaces, he] at hreplaces
        exact Plugin.mem_publications_replace hx hother
      · cases h
  | deleteRelease id version user =>
      obtain ⟨version, rfl⟩ := hop
      cases htarget
      cases h
      have hother : x.version ≠ version := by
        intro he
        simp [withdraws, he] at hwithdraws
      rw [Plugin.publications_drop]
      exact List.mem_filter.mpr ⟨hx, by simpa using hother⟩
  | preferRelease id version preference user =>
      obtain ⟨⟨version, rfl⟩, flag, rfl⟩ := hop
      obtain ⟨release, hrelease, rfl⟩ := Option.map_eq_some_iff.mp h
      obtain ⟨_, rfl⟩ := Plugin.release?_eq_some hrelease
      have hold : p.release? ((release.preferAs (.bool flag)).stamped stamp).version
          = some release := hrelease
      rw [Plugin.publications_replace hold rfl]
      exact hx
  | _ => cases h

/-- An operation on another plugin adds nothing to this one, and removes nothing from it. -/
theorem addTo_other (htarget : op.target? ≠ some id) (added : List String) :
    op.addTo id added = added ∧ ∀ v, op.withdraws id v = false := by
  have hne : ∀ {id' : String}, op.target? = some id' → id' ≠ id :=
    fun ht he => htarget (he ▸ ht)
  cases op with
  | upsert candidate => exact ⟨if_neg (hne rfl), fun _ => rfl⟩
  | createRelease id' release user => exact ⟨if_neg (hne rfl), fun _ => rfl⟩
  | deleteRelease id' version user =>
      cases version with
      | str version =>
          exact ⟨if_neg (hne rfl), fun v => by simp [withdraws, hne rfl]⟩
      | _ => exact ⟨rfl, fun _ => rfl⟩
  | _ => exact ⟨rfl, fun _ => rfl⟩

end Operation

namespace Event

theorem withdrawn_append (id version : String) (events : List Event) (e : Event) :
    withdrawn id version (events ++ [e]) =
      (withdrawn id version events || (e.succeeded && e.operation.withdraws id version)) := by
  simp [withdrawn]

theorem replaced_append (id version : String) (events : List Event) (e : Event) :
    replaced id version (events ++ [e]) =
      (replaced id version events || (e.succeeded && e.operation.replaces id version)) := by
  simp [replaced]

theorem added_append (id : String) (events : List Event) (e : Event) :
    added id (events ++ [e]) =
      if e.succeeded then e.operation.addTo id (added id events) else added id events := by
  simp [added]

theorem removed_append (id : String) (events : List Event) (e : Event) :
    removed id (events ++ [e]) =
      (removed id events || (e.succeeded && e.operation.removes id)) := by
  simp [removed]

end Event

/-- What is left of a plugin after some events, unless they removed it: the versions that were not
removed, the versions that were added, and what was published of those neither removed nor
replaced. -/
def Plugin.Survives {σ : Type} (p : Plugin) (events : List Event) (w : World σ) : Prop :=
  Event.removed p.id events = false → ∃ row q, w.row? p.id = some row ∧ row.Holds q ∧
    q.versions = (p.versions.filter fun v => !Event.withdrawn p.id v events) ++
      Event.added p.id events ∧
    ∀ x ∈ p.publications, Event.withdrawn p.id x.version events = false →
      Event.replaced p.id x.version events = false → x ∈ q.publications

namespace Plugin

variable {σ : Type}

/-- Where versions are unique there is one release of each. -/
theorem filter_version {q : Plugin} (h : q.versions.Nodup) {y : Release} (hy : y ∈ q.releases) :
    q.releases.filter (·.version = y.version) = [y] := by
  unfold versions at h
  generalize q.releases = releases at h hy
  induction releases with
  | nil => cases hy
  | cons r rest ih =>
      obtain ⟨hr, hrest⟩ := List.nodup_cons.mp h
      rcases List.mem_cons.mp hy with rfl | hy
      · have hnone : rest.filter (·.version = y.version) = [] := by
          rw [List.filter_eq_nil_iff]
          intro x hx
          simpa using fun he => hr (List.mem_map.mpr ⟨x, hx, he⟩)
        rw [List.filter_cons_of_pos (by simp), hnone]
      · have hne : r.version ≠ y.version := fun he => hr (he ▸ List.mem_map_of_mem hy)
        rw [List.filter_cons_of_neg (by simpa using hne), ih hrest hy]

theorem survives_self {p : Plugin} {row : Row} {w : World σ} (hrow : w.row? p.id = some row)
    (hp : row.Holds p) : p.Survives [] w := by
  intro _
  refine ⟨row, p, hrow, hp, ?_, fun x hx _ _ => hx⟩
  simp [Event.withdrawn, Event.added]

/-- An event that leaves the row alone adds nothing and removes nothing. -/
theorem Survives.same {p : Plugin} {events : List Event} {w w' : World σ}
    (h : p.Survives events w) {e : Event} (hrow : w'.row? p.id = w.row? p.id)
    (he : e.succeeded = true → e.operation.target? ≠ some p.id) :
    p.Survives (events ++ [e]) w' := by
  intro hremoved
  rw [Event.removed_append, Bool.or_eq_false_iff] at hremoved
  obtain ⟨row, q, hrow', hq, hversions, hpub⟩ := h hremoved.1
  have hadded : Event.added p.id (events ++ [e]) = Event.added p.id events := by
    rw [Event.added_append]
    split
    · rename_i hok
      exact (Operation.addTo_other (he hok) _).1
    · rfl
  have hwithdrawn : ∀ v,
      Event.withdrawn p.id v (events ++ [e]) = Event.withdrawn p.id v events := by
    intro v
    rw [Event.withdrawn_append]
    cases hok : e.succeeded
    · simp
    · simp [(Operation.addTo_other (he hok) []).2 v]
  refine ⟨row, q, hrow.trans hrow', hq, ?_, fun x hx hw hr => ?_⟩
  · rw [hadded, hversions]
    simp only [hwithdrawn]
  · rw [Event.replaced_append, Bool.or_eq_false_iff] at hr
    exact hpub x hx ((hwithdrawn _).symm.trans hw) hr.1

/-- A revision removes, replaces and adds what it says. -/
theorem Survives.revised {p : Plugin} {events : List Event} {w w' : World σ}
    (h : p.Survives events w) {op : Operation} (hop : op.Proper)
    (htarget : op.target? = some p.id) {now : CivilTime} {stamp : Stamp} {row : Row}
    {old q : Plugin}
    (hrevision : op.revision? stamp (old.timed row) = some q) (hwf : q.WellFormed)
    (hrw : w.Rewritten now p.id row old q w') : p.Survives (events ++ [⟨op, true⟩]) w' := by
  intro hremoved
  rw [Event.removed_append, Bool.or_eq_false_iff] at hremoved
  obtain ⟨row₀, q₀, hrow, hold, hversions, hpub⟩ := h hremoved.1
  -- the record that survived so far is the one that was written over
  cases hrow.symm.trans hrw.before
  cases hold.unique hrw.held
  obtain ⟨row', hrow', hkeeps, _⟩ := hrw.after
  refine ⟨row', old.overwrittenBy q, hrow', hkeeps, ?_, fun x hx hw hr => ?_⟩
  · rw [versions_overwrittenBy hrw.held.wellFormed hwf,
      Operation.versions_revision? hop htarget hrevision hversions, Event.added_append, if_pos rfl,
      List.filter_filter]
    congr 2
    funext v
    rw [Event.withdrawn_append]
    simp [Bool.and_comm]
  · rw [Event.withdrawn_append, Bool.or_eq_false_iff] at hw
    rw [Event.replaced_append, Bool.or_eq_false_iff] at hr
    have hx₀ : x ∈ old.publications := hpub x hx hw.1 hr.1
    exact mem_publications_overwrittenBy hrw.held.steady hx₀
      (Operation.mem_publications_revision? hop htarget hrevision hx₀ hw.2 hr.2)

end Plugin

namespace Registry

variable {σ : Type}

/-- A plugin survives a call, unless it is removed. -/
theorem survives_answer {r : Registry σ} {c : Call} (hop : c.operation.Proper) {w : World σ}
    (hs : w.Sound) {p : Plugin} {events : List Event} (h : p.Survives events w) :
    p.Survives (events ++ [⟨c.operation, (r.answer c w).1.isOk⟩]) (r.answer c w).2 := by
  rcases answer_cases r hs hop with ⟨hfailed, hk⟩ | ⟨hok, heffect⟩
  · rw [hfailed]
    exact h.same (hk.sameRecords.row? _) fun he => absurd he Bool.false_ne_true
  · rw [hok]
    generalize c.operation = op at hop heffect ⊢
    cases heffect with
    | unchanged htarget hrows =>
        refine h.same (hrows _) fun _ he => ?_
        cases htarget.symm.trans he
    | @made candidate hvalid hmade =>
        by_cases hid : p.id = candidate.id
        · -- a record that is stored cannot be made
          intro hremoved
          rw [Event.removed_append, Bool.or_eq_false_iff] at hremoved
          obtain ⟨row, _, hrow, _⟩ := h hremoved.1
          rw [hid] at hrow
          cases hrow.symm.trans hmade.before
        · exact h.same (hmade.others _ hid) fun _ he => hid (Option.some.inj he).symm
    | @revised _ target row old q stamp htarget _ hrevision hvalid hwf hrewritten =>
        by_cases hid : p.id = target
        · subst hid
          exact h.revised hop htarget hrevision hwf hrewritten
        · refine h.same (hrewritten.others _ hid) fun _ he => ?_
          exact hid (Option.some.inj (he.symm.trans htarget))
    | @removed target user hremoved =>
        by_cases hid : p.id = target
        · intro hnot
          rw [Event.removed_append, hid] at hnot
          simp [Operation.removes] at hnot
        · exact h.same (hremoved.others _ hid) fun _ he => hid (Option.some.inj he).symm

theorem survives_run {r : Registry σ} {calls : List Call} (hc : ∀ c ∈ calls, c.operation.Proper)
    {w : World σ} (hs : w.Sound) {p : Plugin} (h : p.Survives [] w) :
    p.Survives (r.history calls w) (r.run calls w) :=
  (r.run_induction (motive := fun events w => w.Sound ∧ p.Survives events w)
    (fun _ _ _ hop h => ⟨r.sound_answer hop h.1, survives_answer hop h.1 h.2⟩) hc [] ⟨hs, h⟩).2

/-- Calls that publish three releases. -/
def publishing : List Call :=
  [⟨default, .upsert
    (.bare "acme.a" [.bare "1.0.0" false, .bare "2.0.0" false, .bare "3.0.0" false])⟩]

/-- Calls that add a release, remove one and replace one. -/
def changing : List Call :=
  [⟨default, .createRelease "acme.a" (.bare "4.0.0" true) none⟩,
    ⟨default, .deleteRelease "acme.a" (.str "2.0.0") none⟩,
    ⟨default, .upsertRelease "acme.a" (.bare "3.0.0" false) none⟩]

end Registry

end PluginRegistry
