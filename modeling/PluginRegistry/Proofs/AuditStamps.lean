import PluginRegistry.Proofs.Lifetimes

/-!
# Where audit stamps are from

A release bears the time and the user of its last change. A change of a release leaves its own stamp
on it, and on the siblings of a release that is preferred. An upsert leaves none: a release that it
brings in bears what its document says, until a change stamps it. `Imprint.ofLife` follows both along
the life of a record, and every stored release bears what is found there.
-/

namespace PluginRegistry

/-- Where the stamp of a release is from. -/
inductive Origin where
  /-- The document in which an upsert brought the release in. -/
  | document (deed : Deed) (release : Release)
  /-- A change of a release. -/
  | change (deed : Deed)

namespace Origin

/-- The deed that left the stamp. -/
def deed : Origin → Deed
  | .document d _ => d
  | .change d => d

/-- The time of the stamp. -/
def moment : Origin → Option Moment
  | .document _ release => release.lastModified
  | .change d => some (.utc d.stamp.time)

/-- The user of the stamp. -/
def user : Origin → Option String
  | .document _ release => release.lastModifiedBy
  | .change d => some d.stamp.actor

end Origin

/-- What is known of a release: its version, and where its stamp is from. -/
structure Imprint where
  version : String
  origin : Origin

/-- The operation changes a release, rather than bringing in a record or removing anything. -/
def Operation.changesRelease : Operation → Bool
  | .createRelease _ _ _ | .upsertRelease _ _ _ | .preferRelease _ _ _ _ => true
  | _ => false

namespace Imprint

/-! ## What a life leaves on the releases -/

/-- A deed stamps the first release of a version, or the one that it adds. -/
def put (d : Deed) (version : String) : List Imprint → List Imprint
  | [] => [⟨version, .change d⟩]
  | i :: rest =>
    if i.version = version then ⟨version, .change d⟩ :: rest else i :: put d version rest

/-- A deed stamps the siblings of a release if that is preferred. -/
def settle (d : Deed) (version : String) (preferred : Bool) (imprints : List Imprint) :
    List Imprint :=
  if preferred then
    imprints.map fun i => if i.version = version then i else ⟨i.version, .change d⟩
  else imprints

/-- What is known of the releases after one more deed. -/
def follow (imprints : List Imprint) (d : Deed) : List Imprint :=
  match d.operation with
  | .upsert candidate =>
    imprints ++ candidate.releases.map fun r => ⟨r.version, .document d r⟩
  | .createRelease _ release _ =>
    settle d release.version release.preferred (imprints ++ [⟨release.version, .change d⟩])
  | .upsertRelease _ release _ =>
    settle d release.version release.preferred (put d release.version imprints)
  | .preferRelease _ (.str version) preference _ =>
    settle d version preference.truthy (put d version imprints)
  | .deleteRelease _ (.str version) _ => imprints.filter (·.version ≠ version)
  | _ => imprints

/-- What is known of the releases of a record by its life, in order. -/
def ofLife (life : List Deed) : List Imprint := life.foldl follow []

/-- The origin is what it says: a release of that version in the document of an upsert, or a change
of a release. -/
def Genuine (i : Imprint) : Prop :=
  match i.origin with
  | .document d release => release.version = i.version ∧
      ∃ candidate, d.operation = .upsert candidate ∧ release ∈ candidate.releases
  | .change d => d.operation.changesRelease = true

theorem ofLife_concat (life : List Deed) (d : Deed) :
    ofLife (life ++ [d]) = follow (ofLife life) d := by
  unfold ofLife
  rw [List.foldl_append]
  rfl

theorem mem_put {d : Deed} {version : String} {i : Imprint} {imprints : List Imprint}
    (h : i ∈ put d version imprints) : i.origin = .change d ∨ i ∈ imprints := by
  induction imprints with
  | nil =>
      cases List.mem_singleton.mp h
      exact .inl rfl
  | cons first rest ih =>
      unfold put at h
      split at h
      · rcases List.mem_cons.mp h with rfl | h
        · exact .inl rfl
        · exact .inr (List.mem_cons_of_mem _ h)
      · rcases List.mem_cons.mp h with rfl | h
        · exact .inr List.mem_cons_self
        · exact (ih h).imp_right (List.mem_cons_of_mem _)

theorem mem_settle {d : Deed} {version : String} {preferred : Bool} {i : Imprint}
    {imprints : List Imprint} (h : i ∈ settle d version preferred imprints) :
    i.origin = .change d ∨ i ∈ imprints := by
  unfold settle at h
  split at h
  · obtain ⟨i', hi', rfl⟩ := List.mem_map.mp h
    split
    · exact .inr hi'
    · exact .inl rfl
  · exact .inr h

theorem mem_settle_put {d : Deed} {version : String} {preferred : Bool} {i : Imprint}
    {imprints : List Imprint} (h : i ∈ settle d version preferred (put d version imprints)) :
    i ∈ imprints ∨ i.origin = .change d := by
  rcases mem_settle h with h | h
  · exact .inr h
  · exact (mem_put h).symm

theorem genuine_of_change {d : Deed} {i : Imprint} (hd : d.operation.changesRelease = true)
    (h : i.origin = .change d) : i.origin.deed = d ∧ i.Genuine := by
  unfold Genuine
  rw [h]
  exact ⟨rfl, hd⟩

/-- One more deed leaves what was known, or its own stamp if it changes a release, or what its
document says if it is an upsert. -/
theorem mem_follow {d : Deed} {i : Imprint} {imprints : List Imprint}
    (h : i ∈ follow imprints d) : i ∈ imprints ∨ i.origin.deed = d ∧ i.Genuine := by
  unfold follow at h
  split at h
  · -- an upsert leaves its document
    rename_i candidate hd
    rcases List.mem_append.mp h with h | h
    · exact .inl h
    · obtain ⟨release, hr, rfl⟩ := List.mem_map.mp h
      exact .inr ⟨rfl, rfl, candidate, hd, hr⟩
  · -- a new release is stamped, and so are the siblings that yield to it
    rename_i hd
    have hchanges : d.operation.changesRelease = true := by
      rw [hd]
      rfl
    rcases mem_settle h with h | h
    · exact .inr (genuine_of_change hchanges h)
    · rcases List.mem_append.mp h with h | h
      · exact .inl h
      · cases List.mem_singleton.mp h
        exact .inr (genuine_of_change hchanges rfl)
  · rename_i hd
    have hchanges : d.operation.changesRelease = true := by
      rw [hd]
      rfl
    exact (mem_settle_put h).imp_right (genuine_of_change hchanges)
  · rename_i hd
    have hchanges : d.operation.changesRelease = true := by
      rw [hd]
      rfl
    exact (mem_settle_put h).imp_right (genuine_of_change hchanges)
  · -- what is left of a removal was there before
    exact .inl (List.mem_filter.mp h).1
  · exact .inl h

/-- **Every stamp is from a deed of the life.** -/
theorem genuine_of_mem_ofLife {i : Imprint} {life : List Deed} (h : i ∈ ofLife life) :
    i.origin.deed ∈ life ∧ i.Genuine := by
  induction life using List.reverseRecOn with
  | nil => cases h
  | append_singleton life d ih =>
      rw [ofLife_concat] at h
      rcases mem_follow h with h | ⟨hd, hi⟩
      · exact ⟨List.mem_append_left _ (ih h).1, (ih h).2⟩
      · subst hd
        exact ⟨List.mem_append_right _ (List.mem_singleton_self _), hi⟩

end Imprint

/-! ## What the releases bear -/

/-- The release bears the stamp of that origin. -/
structure Release.Bears (r : Release) (i : Imprint) : Prop where
  /-- It is of the version. -/
  version : r.version = i.version
  /-- It bears the time. -/
  moment : r.lastModified = i.origin.moment
  /-- It bears the user. -/
  user : r.lastModifiedBy = i.origin.user

namespace Release

variable {releases : List Release} {imprints : List Imprint} {d : Deed} {release : Release}

theorem bears_stamped (d : Deed) (r : Release) :
    (r.stamped d.stamp).Bears ⟨r.version, .change d⟩ := ⟨rfl, rfl, rfl⟩

theorem bears_settle (h : List.Forall₂ Bears releases imprints) :
    List.Forall₂ Bears (release.settle d.stamp releases)
      (Imprint.settle d release.version release.preferred imprints) := by
  unfold settle Imprint.settle
  cases release.preferred with
  | false => exact h
  | true =>
      rw [if_pos rfl, if_pos rfl, List.forall₂_map_left_iff, List.forall₂_map_right_iff]
      refine h.imp fun r i hb => ?_
      rw [← hb.version]
      split
      · exact hb
      · exact bears_stamped d (r.withPreference false)

theorem bears_setRelease (hrelease : release.Bears ⟨release.version, .change d⟩)
    (h : List.Forall₂ Bears releases imprints) :
    List.Forall₂ Bears (Plugin.setRelease release.version release releases)
      (Imprint.put d release.version imprints) := by
  induction h with
  | nil => exact .cons hrelease .nil
  | @cons r i rest rest' hb htail ih =>
      unfold Plugin.setRelease Imprint.put
      rw [← hb.version]
      split
      · exact .cons hrelease htail
      · exact .cons hb ih

theorem bears_filter (version : String) (h : List.Forall₂ Bears releases imprints) :
    List.Forall₂ Bears (releases.filter (·.version ≠ version))
      (imprints.filter (·.version ≠ version)) :=
  List.rel_filter (fun r i hb => by simp [hb.version]) h

theorem bears_restored (h : List.Forall₂ Bears releases imprints) :
    List.Forall₂ Bears (releases.map Release.restored) imprints := by
  rw [List.forall₂_map_left_iff]
  exact h.imp fun r i hb => ⟨hb.version, hb.moment, hb.user⟩

/-- Releases that come in without a preference bear what they bore in the document. -/
theorem bears_document (d : Deed) (releases : List Release) :
    List.Forall₂ Bears (releases.map (·.withPreference false))
      (releases.map fun r => ⟨r.version, .document d r⟩) := by
  rw [List.forall₂_map_left_iff, List.forall₂_map_right_iff, List.forall₂_same]
  exact fun r _ => ⟨rfl, rfl, rfl⟩

/-- Releases that are alike bear the same stamps. -/
theorem bears_of_alike {others : List Release}
    (halike : List.Forall₂ (fun r r' => r.toJson.alike r'.toJson = true) releases others)
    (h : List.Forall₂ Bears releases imprints) : List.Forall₂ Bears others imprints := by
  induction halike generalizing imprints with
  | nil => exact h
  | @cons r r' rest rest' hr _ ih =>
      cases h with
      | cons hb htail =>
          obtain ⟨htime, huser⟩ := stamp_of_alike hr
          have hversion : r.version = r'.version := Json.alike_str (alike_declared hr 0 rfl rfl)
          exact .cons ⟨hversion.symm.trans hb.version, htime.symm.trans hb.moment,
            huser.symm.trans hb.user⟩ (ih htail)

end Release

namespace Plugin

variable {imprints : List Imprint}

theorem bears_append (d : Deed) (release : Release) {p : Plugin}
    (h : List.Forall₂ Release.Bears p.releases imprints) :
    List.Forall₂ Release.Bears (p.append d.stamp (release.stamped d.stamp)).releases
      (Imprint.settle d release.version release.preferred
        (imprints ++ [⟨release.version, .change d⟩])) :=
  Release.bears_settle (List.rel_append h (.cons (Release.bears_stamped d release) .nil))

theorem bears_replace (d : Deed) (release : Release) {p : Plugin}
    (h : List.Forall₂ Release.Bears p.releases imprints) :
    List.Forall₂ Release.Bears (p.replace d.stamp (release.stamped d.stamp)).releases
      (Imprint.settle d release.version release.preferred
        (Imprint.put d release.version imprints)) :=
  Release.bears_settle (Release.bears_setRelease (Release.bears_stamped d release) h)

theorem bears_overwrittenBy {p q : Plugin} (h : List.Forall₂ Release.Bears q.releases imprints) :
    List.Forall₂ Release.Bears (p.overwrittenBy q).releases imprints := by
  unfold overwrittenBy
  split
  · rename_i halike
    exact Release.bears_of_alike (releases_of_alike halike) h
  · exact Release.bears_restored h

end Plugin

/-- The releases of a revised record bear what follows from the deed. -/
theorem Operation.bears_of_revision? {d : Deed} {p q : Plugin} {imprints : List Imprint}
    (hd : d.operation.Proper) (h : d.operation.revision? d.stamp p = some q)
    (hp : List.Forall₂ Release.Bears p.releases imprints) :
    List.Forall₂ Release.Bears q.releases (Imprint.follow imprints d) := by
  obtain ⟨stamp, op, succeeded⟩ := d
  cases op with
  | upsert candidate =>
      simp only [revision?] at h
      split at h
      · cases h
        exact List.rel_append hp (Release.bears_document _ _)
      · cases h
  | createRelease id release user =>
      cases h
      exact Plugin.bears_append _ release hp
  | upsertRelease id release user =>
      simp only [revision?] at h
      split at h
      · cases h
        exact Plugin.bears_replace ⟨stamp, _, succeeded⟩ release hp
      · cases h
  | deleteRelease id version user =>
      obtain ⟨version, rfl⟩ := hd
      cases h
      exact Release.bears_filter version hp
  | preferRelease id version preference user =>
      obtain ⟨⟨version, rfl⟩, flag, rfl⟩ := hd
      obtain ⟨release, hrelease, rfl⟩ := Option.map_eq_some_iff.mp h
      obtain ⟨_, rfl⟩ := Plugin.release?_eq_some hrelease
      exact Plugin.bears_replace _ (release.preferAs (.bool flag)) hp
  | _ => cases h

namespace Deed

/-- What the releases of a record bear can be told by its life. -/
theorem traces_stamps :
    Traces fun life _ p => List.Forall₂ Release.Bears p.releases (Imprint.ofLife life) where
  made {d row candidate} hd _ _ _ := by
    refine Release.bears_restored ?_
    show List.Forall₂ Release.Bears _ (Imprint.follow [] d)
    unfold Imprint.follow
    rw [hd]
    exact Release.bears_document d candidate.releases
  revised {life d row row' p q} h hd hrevision _ _ _ _ _ := by
    rw [Imprint.ofLife_concat]
    exact Plugin.bears_overwrittenBy
      (Operation.bears_of_revision? (p := p.timed row) hd hrevision h)

end Deed

namespace Registry

variable {σ : Type}

/-- **Every stamp is traced.** After a run that started with an empty table, the releases of a record
that is found bear, one by one, the stamps that its life left on them: each is the one of the last
change that stamped the release, or else the one of the document in which an upsert brought the
release in. Both the change and the upsert are operations on the record that succeeded. -/
theorem stamps_traced {r : Registry σ} {w : World σ} (hw : w.Empty) {calls : List Call}
    (hc : ∀ c ∈ calls, c.operation.Proper) {id : String} {p : Plugin}
    (hp : (r.run calls w).plugin? id = some p) :
    List.Forall₂ Release.Bears p.releases (Imprint.ofLife (Deed.life id (r.deeds calls w))) ∧
      ∀ i ∈ Imprint.ofLife (Deed.life id (r.deeds calls w)), i.Genuine ∧
        i.origin.deed ∈ Deed.life id (r.deeds calls w) ∧ i.origin.deed.succeeded = true ∧
        i.origin.deed.operation.target? = some id := by
  obtain ⟨row, held, hrow, hheld, rfl⟩ := (r.sound_run hc hw.sound).row_of_plugin? hp
  refine ⟨(traced_run Deed.traces_stamps hw hc id).present row held hrow hheld, fun i hi => ?_⟩
  obtain ⟨hmem, hgenuine⟩ := Imprint.genuine_of_mem_ofLife hi
  exact ⟨hgenuine, hmem, Deed.of_mem_life hmem⟩

/-- A release whose document names a time and a user of its own. -/
def signed (version : String) : Release :=
  { Release.bare version false with
    lastModified := some (.utc (.early 9)), lastModifiedBy := some "mallory" }

/-- Calls that bring in three such releases, two by an upsert and one as a new release, and change
one of them. -/
def signing : List Call :=
  [⟨.early 1, .upsert (.bare "acme.a" [signed "1.0.0", signed "2.0.0"])⟩,
    ⟨.early 2, .createRelease "acme.a" (signed "3.0.0") (some "alice")⟩,
    ⟨.early 3, .preferRelease "acme.a" (.str "2.0.0") (.bool false) none⟩]

/-- The release that nothing has changed since the upsert bears what its document says, and the
others bear the stamps of their changes. -/
theorem stamps_traced_signing :
    ∃ p, ((plain none).run signing (.blank ())).plugin? "acme.a" = some p ∧
      p.releases.map (fun r => (r.version, r.lastModified, r.lastModifiedBy)) =
        [("1.0.0", some (.utc (.early 9)), some "mallory"),
          ("2.0.0", some (.utc (.early 3)), some "anonymous"),
          ("3.0.0", some (.utc (.early 2)), some "alice")] := by
  have hproper : ∀ c ∈ signing, c.operation.Proper := by
    decide
  have hempty : (World.blank ()).Empty := ⟨rfl, rfl⟩
  have hstored : (((plain none).run signing (.blank ())).plugin? "acme.a").isSome = true := by
    decide +kernel
  have hlife : (Imprint.ofLife (Deed.life "acme.a" ((plain none).deeds signing (.blank ())))).map
        (fun i => (i.version, i.origin.moment, i.origin.user)) =
      [("1.0.0", some (.utc (.early 9)), some "mallory"),
        ("2.0.0", some (.utc (.early 3)), some "anonymous"),
        ("3.0.0", some (.utc (.early 2)), some "alice")] := by
    decide +kernel
  obtain ⟨p, hp⟩ := Option.isSome_iff_exists.mp hstored
  obtain ⟨hbears, _⟩ := stamps_traced (r := plain none) hempty hproper hp
  refine ⟨p, hp, ?_⟩
  rw [← hlife, ← List.forall₂_eq_eq_eq, List.forall₂_map_left_iff, List.forall₂_map_right_iff]
  exact hbears.imp fun r i hb => by rw [hb.version, hb.moment, hb.user]

end Registry

end PluginRegistry
