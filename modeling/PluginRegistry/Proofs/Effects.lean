import PluginRegistry.Proofs.ActingUser

/-!
# What each operation does to the records

`Effect` says everything that an operation can do to the rows of the table when it succeeds: it
leaves them all alone, it makes one, it writes one over, or it removes one. What is written over a
row is told by `Operation.revision?`, as a function of the record that the row keeps. An operation
that fails leaves everything as it was, on any state but for `delete`, which needs a sound one.
-/

namespace PluginRegistry

namespace Operation

/-- The plugin whose record the operation may change. -/
def target? : Operation → Option String
  | .upsert candidate => some candidate.id
  | .delete id _ | .createRelease id _ _ | .upsertRelease id _ _ | .deleteRelease id _ _
  | .preferRelease id _ _ _ => some id
  | _ => none

/-- The record that the operation writes over a stored one, if it does. -/
def revision? (stamp : Stamp) (p : Plugin) : Operation → Option Plugin
  | .upsert candidate =>
    if (p.firstClash? candidate).isNone then some (p.mergedInto candidate.withoutPreference)
    else none
  | .createRelease _ release _ => some (p.append stamp (release.stamped stamp))
  | .upsertRelease _ release _ =>
    if release.version ∈ p.versions then some (p.replace stamp (release.stamped stamp)) else none
  | .deleteRelease _ (.str version) _ => some (p.drop version)
  | .deleteRelease _ _ _ => some p
  | .preferRelease _ (.str version) preference _ =>
    (p.release? version).map fun release =>
      p.replace stamp ((release.preferAs preference).stamped stamp)
  | _ => none

/-- What the operation gives once it has written a record over a stored one: the release whose
preference was changed, or else the record that was to be written, with its times. -/
def reply? (stamp : Stamp) (row : Row) (p q : Plugin) : Operation → Option Answer
  | .preferRelease _ (.str version) preference _ =>
    (p.release? version).map fun release => .release ((release.preferAs preference).stamped stamp)
  | .upsert _ | .createRelease _ _ _ | .upsertRelease _ _ _ | .deleteRelease _ _ _ =>
    some (.plugin (q.timed { row with lastModified := stamp.time }))
  | _ => none

/-- What the operation writes has to be accepted by the validators. -/
def IsValidated : Operation → Prop
  | .upsert _ | .createRelease _ _ _ | .upsertRelease _ _ _ => True
  | _ => False

end Operation

namespace Registry

open PluginRegistry.Action

variable {σ : Type}

/-- The validators have nothing to object to. -/
def Accepts (r : Registry σ) (p : Plugin) : Prop :=
  (Validator.report r.validators p).violations = []

theorem Accepts.check {r : Registry σ} {p : Plugin} (h : r.Accepts p) {rule : Validator}
    (hrule : rule ∈ r.validators) : rule.check p = [] :=
  List.flatMap_eq_nil_iff.mp h rule hrule

theorem keeps_actor (r : Registry σ) (user : Option String) : (r.actor user).Keeps := by
  unfold actor
  split
  · exact keeps_pure _
  · exact keeps_pure _
  · exact fun w => ⟨⟨rfl, rfl, [], (List.append_nil _).symm, fun _ he => by cases he⟩, rfl⟩

theorem total_actor (r : Registry σ) (user : Option String) : (r.actor user).Total := by
  unfold actor
  split
  · exact total_pure _
  · exact total_pure _
  · exact total_get.bind fun w => (total_modify _).bind fun _ => total_pure _

theorem keeps_validate (r : Registry σ) (plugin : Plugin) : (r.validate plugin).Keeps := by
  unfold validate
  dsimp only
  split
  · exact keeps_pure _
  · exact (keeps_note (Log.Entry.not_isAudit (by simp))).bind fun _ => keeps_refuse _

theorem validate_eq_ok {r : Registry σ} {plugin : Plugin} {w w' : World σ} {u : Unit}
    (h : (r.validate plugin).start w = (.ok u, w')) : r.Accepts plugin := by
  unfold validate at h
  dsimp only at h
  split at h
  · rename_i hempty
    exact List.isEmpty_iff.mp hempty
  · cases h

theorem keeps_requireCopy (canCopy : Bool) : (requireCopy canCopy : Action σ Unit).Keeps := by
  unfold requireCopy
  split
  · exact keeps_pure _
  · exact keeps_throw _

theorem total_deleteArtifact (r : Registry σ) (plugin : String) (version : Json) :
    (r.deleteArtifact plugin version).Total := by
  unfold deleteArtifact
  split
  · dsimp only
    split
    · exact total_note _ _
    · refine total_get.bind fun w => (total_modify _).bind fun _ => ?_
      split
      · exact total_note _ _
      · exact total_pure _
  · exact total_pure _

/-- The artifacts once that of a version was removed, as far as the store does it. -/
def artifactsWithout (r : Registry σ) (plugin : String) (version : Json) (artifacts : σ) : σ :=
  match r.store with
  | none => artifacts
  | some store =>
    match store.getKey plugin version.display with
    | .error _ => artifacts
    | .ok key => (store.delete key artifacts).2.1

theorem deleteArtifact_start (r : Registry σ) (plugin : String) (version : Json) (w : World σ) :
    w.SameRecords ((r.deleteArtifact plugin version).start w).2 ∧
      ((r.deleteArtifact plugin version).start w).2.artifacts
        = r.artifactsWithout plugin version w.artifacts := by
  unfold deleteArtifact artifactsWithout
  cases r.store with
  | none => exact ⟨⟨rfl, rfl⟩, rfl⟩
  | some store =>
      dsimp only
      cases store.getKey plugin version.display with
      | error fault => exact ⟨⟨rfl, rfl⟩, rfl⟩
      | ok key =>
          rw [start_bind, start_get]
          dsimp only
          rw [start_bind, start_modify]
          dsimp only
          split
          · exact ⟨⟨rfl, rfl⟩, rfl⟩
          · exact ⟨⟨rfl, rfl⟩, rfl⟩

/-! ## Failures change nothing -/

theorem atomic_update (timing : Timing) (now : CivilTime) (id : String) (plugin : Plugin) :
    (Catalog.update timing now id plugin : Action σ Plugin).Atomic :=
  (Catalog.update_calm_and_atomic timing now id plugin).2

theorem total_audit (topic : Log.Topic) (action user plugin : String) (version : Json) :
    (audit topic action user plugin version : Action σ Unit).Total := total_note _ _

theorem atomic_upsert (r : Registry σ) (now : CivilTime) (plugin : Plugin) :
    (r.upsert now plugin).Atomic := by
  unfold upsert
  refine (keeps_requireCopy _).bind_atomic fun _ => ?_
  refine (Catalog.keeps_byId? _ _).bind_atomic fun found => ?_
  dsimp only
  split
  · -- a record that is new is validated and then inserted
    refine (keeps_validate _ _).bind_atomic fun _ => ?_
    refine (Catalog.insert_calm_and_atomic _ _ _ _).2.bind_total fun created => ?_
    exact (total_note _ _).bind fun _ => total_pure _
  · -- one that is there is merged with, validated and then updated
    split
    · exact (keeps_throw_bind _ _).atomic
    · refine (keeps_validate _ _).bind_atomic fun _ => ?_
      refine (atomic_update _ _ _ _).bind_total fun written => ?_
      exact (total_note _ _).bind fun _ => total_pure _

theorem atomic_dropReleases (r : Registry σ) (now : CivilTime) (id : String) (version : Json)
    (change : Plugin → Plugin) (user : Option String) :
    (r.dropReleases now id version change user).Atomic := by
  refine (Catalog.keeps_byId _ _).bind_atomic fun current => ?_
  -- after the update the actor, the audit and the artifact remain, and none of them fails
  refine (atomic_update _ _ _ _).bind_total fun written => ?_
  refine (total_actor _ _).bind fun actor => (total_audit _ _ _ _ _).bind fun _ => ?_
  exact (total_deleteArtifact _ _ _).bind fun _ => total_pure _

theorem atomic_createRelease (r : Registry σ) (now : CivilTime) (id : String) (release : Release)
    (user : Option String) : (r.createRelease now id release user).Atomic := by
  refine (keeps_actor _ _).bind_atomic fun actor => (keeps_requireCopy _).bind_atomic fun _ => ?_
  refine (Catalog.keeps_byId _ _).bind_atomic fun current => ?_
  refine (keeps_validate _ _).bind_atomic fun _ => ?_
  refine (atomic_update _ _ _ _).bind_total fun written => ?_
  exact (total_audit _ _ _ _ _).bind fun _ => total_pure _

theorem atomic_upsertRelease (r : Registry σ) (now : CivilTime) (id : String) (release : Release)
    (user : Option String) : (r.upsertRelease now id release user).Atomic := by
  refine (keeps_actor _ _).bind_atomic fun actor => (keeps_requireCopy _).bind_atomic fun _ => ?_
  refine (Catalog.keeps_byId _ _).bind_atomic fun current => ?_
  dsimp only
  split
  · exact (keeps_throw_bind _ _).atomic
  · refine (keeps_validate _ _).bind_atomic fun _ => ?_
    refine (atomic_update _ _ _ _).bind_total fun written => ?_
    exact (total_audit _ _ _ _ _).bind fun _ => total_pure _

theorem atomic_preferRelease (r : Registry σ) (now : CivilTime) (id version : String)
    (preference : Json) (user : Option String) :
    (r.preferRelease now id version preference user).Atomic := by
  refine (Catalog.keeps_byId _ _).bind_atomic fun current => ?_
  split
  · exact (keeps_refuse _).atomic
  · refine (keeps_actor _ _).bind_atomic fun actor => ?_
    refine (atomic_update _ _ _ _).bind_total fun written => ?_
    exact (total_audit _ _ _ _ _).bind fun _ => total_pure _

theorem keeps_findByService (r : Registry σ) (service : Option String) :
    (r.findByService service).Keeps := by
  unfold findByService
  split
  · exact Catalog.keeps_byService _ _
  · exact keeps_refuse _

/-- **A failure changes nothing**, unless it is one of `delete`, which works in several steps. -/
theorem atomic_perform (r : Registry σ) (now : CivilTime) {op : Operation}
    (h : ∀ id user, op ≠ .delete id user) : (r.perform now op).Atomic := by
  unfold perform
  split
  · exact ((Catalog.keeps_all _).map _).atomic
  · exact ((keeps_findByService _ _).map _).atomic
  · exact ((Catalog.keeps_byId _ _).map _).atomic
  · exact ((keeps_validate _ _).map _).atomic
  · exact (atomic_upsert _ _ _).map _
  · exact absurd rfl (h _ _)
  · exact (atomic_createRelease _ _ _ _ _).map _
  · exact (atomic_upsertRelease _ _ _ _ _).map _
  · exact (atomic_dropReleases _ _ _ _ _ _).map _
  · exact (atomic_dropReleases _ _ _ _ _ _).map _
  · exact (atomic_preferRelease _ _ _ _ _ _).map _
  · exact (((Catalog.keeps_byId _ _).bind fun _ => keeps_refuse _).map _).atomic

/-! ## Records that are found and written -/

theorem byId?_eq_ok {timing : Timing} {w w' : World σ} {id : String} {found : Option Plugin}
    (hs : w.Sound) (h : (Catalog.byId? timing id).start w = (.ok found, w')) :
    (found = none ∧ w.row? id = none) ∨
      ∃ row p, w.row? id = some row ∧ row.Holds p ∧ found = some (p.timed row) := by
  obtain ⟨t, ht⟩ := hs.table
  cases hrow : w.row? id with
  | none =>
      rw [World.row?_of_table ht] at hrow
      cases hid : textFault? id with
      | some fault =>
          obtain ⟨w₁, _, hstart⟩ := Catalog.byId?_of_fault ht timing hid
          cases hstart.symm.trans h
      | none =>
          obtain ⟨w₁, _, hstart⟩ := Catalog.byId?_of_missing ht timing hid hrow
          rw [hstart] at h
          cases h
          exact .inl ⟨rfl, rfl⟩
  | some row =>
      obtain ⟨p, hp⟩ := hs.rows id row hrow
      have hid := hs.textFault?_of_row hrow
      rw [World.row?_of_table ht] at hrow
      obtain ⟨w₁, _, hstart⟩ := Catalog.byId?_of_row ht timing hid hrow hp.ofRow
      rw [hstart] at h
      cases h
      exact .inr ⟨row, p, rfl, hp, rfl⟩

theorem find_eq_ok {r : Registry σ} {w w' : World σ} {id : String} {current : Plugin}
    (hs : w.Sound) (h : (r.find id).start w = (.ok current, w')) :
    ∃ row p, w.row? id = some row ∧ row.Holds p ∧ current = p.timed row ∧ w.Kept w' := by
  have hk := (Catalog.keeps_byId r.timing id).of_start h
  unfold find Catalog.byId at h
  rw [start_bind_eq_ok] at h
  obtain ⟨found, w₁, hfound, h⟩ := h
  rcases byId?_eq_ok hs hfound with ⟨rfl, _⟩ | ⟨row, p, hrow, hp, rfl⟩
  · cases h
  · cases h
    exact ⟨row, p, hrow, hp, rfl, hk⟩

theorem find_of_row (r : Registry σ) {w : World σ} {id : String} {row : Row} {p : Plugin}
    (hs : w.Sound) (hrow : w.row? id = some row) (hp : row.Holds p) :
    ∃ w', w.Kept w' ∧ (r.find id).start w = (.ok (p.timed row), w') := by
  obtain ⟨t, ht⟩ := hs.table
  have hid := hs.textFault?_of_row hrow
  rw [World.row?_of_table ht] at hrow
  obtain ⟨w', hk, hstart⟩ := Catalog.byId?_of_row ht r.timing hid hrow hp.ofRow
  refine ⟨w', hk, ?_⟩
  unfold find Catalog.byId
  rw [start_bind, hstart]
  rfl

/-- What a successful update leaves behind, among actions that leave the records alone. -/
theorem rewritten_of_update {timing : Timing} {now : CivilTime} {w w₁ w₂ w' : World σ}
    {id : String} {row : Row} {p q answer : Plugin} (hs : w.Sound) (hrow : w.row? id = some row)
    (hp : row.Holds p) (hk : w.Kept w₁) (hq : q.WellFormed) (hid : q.id = p.id)
    (h : (Catalog.update timing now q.id q).start w₁ = (.ok answer, w₂))
    (hsame : w₂.SameRecords w') :
    w.Rewritten now id row p q w' ∧ w'.Sound ∧ w₂.artifacts = w.artifacts ∧
      answer = q.timed { row with lastModified := now } := by
  obtain ⟨t, ht⟩ := hs.table
  have ht₁ := hk.table.trans ht
  have hrowid := World.id_of_row? hrow
  have hqid : q.id = id := hid.trans (hp.id.trans hrowid)
  obtain ⟨row', body, _, hfound, hbody, htag, _, htable, hcalm, hanswer⟩ :=
    Catalog.update_eq_ok ht₁ h
  rw [World.row?_of_table ht] at hrow
  rw [hqid, hrow] at hfound
  cases hfound
  have hkeeps : (Catalog.written now q body row).Holds (p.overwrittenBy q) :=
    hp.written hq hbody htag (hid.trans hp.id) now
  have hrow₂ : w₂.row? id = some (Catalog.written now q body row) := by
    rw [World.row?_of_table htable, Table.find?_modify, if_pos hqid.symm, hqid, hrow]
    rfl
  have hothers : ∀ id', id' ≠ id → w₂.row? id' = w.row? id' := by
    intro id' hne
    rw [World.row?_of_table htable, World.row?_of_table ht, Table.find?_modify,
      if_neg (hqid.symm ▸ hne)]
  -- what comes after the update leaves the rows alone
  have hrw : w.Rewritten now id row p q w₂ := by
    refine ⟨(World.row?_of_table ht id).trans hrow, hp, ?_, hothers⟩
    exact ⟨_, hrow₂, hkeeps, rfl, rfl, rfl⟩
  have hsound : w₂.Sound := by
    refine hs.changed htable (hcalm.readOnly.trans hk.readOnly) hothers fun row'' h'' => ?_
    rw [hrow₂] at h''
    cases h''
    exact ⟨_, hkeeps⟩
  exact ⟨hrw.of_sameRecords ⟨rfl, rfl⟩ hsame, hsame.sound hsound,
    hcalm.artifacts.trans hk.artifacts, hanswer⟩

/-- What a successful insertion leaves behind, among actions that leave the records alone. -/
theorem made_of_insert {timing : Timing} {now : CivilTime} {w w₁ w₂ w' : World σ}
    {q answer : Plugin} (hs : w.Sound) (hk : w.Kept w₁) (hq : q.WellFormed)
    (h : (Catalog.insert timing now q.id q).start w₁ = (.ok answer, w₂))
    (hsame : w₂.SameRecords w') :
    w.Made now q w' ∧ w'.Sound ∧
      ∃ row, w'.row? q.id = some row ∧ answer = q.restored.timed row := by
  obtain ⟨t, ht⟩ := hs.table
  have ht₁ := hk.table.trans ht
  obtain ⟨body, t', _, hbody, htag, _, hinsert, htable, hcalm, hread⟩ :=
    Catalog.insert_eq_ok ht₁ h
  have hfind := Table.insert?_eq_some hinsert
  have hkeeps : Row.Holds ⟨q.id, q.service, body, now, now⟩ q.restored :=
    Row.holds_made hq hbody htag rfl rfl
  have hrow₂ : w₂.row? q.id = some ⟨q.id, q.service, body, now, now⟩ := by
    rw [World.row?_of_table htable, (hfind q.id).2, if_pos rfl]
  have hothers : ∀ id', id' ≠ q.id → w₂.row? id' = w.row? id' := by
    intro id' hne
    rw [World.row?_of_table htable, World.row?_of_table ht, (hfind id').2, if_neg hne.symm]
  have hmade : w.Made now q w₂ := by
    refine ⟨(World.row?_of_table ht _).trans (hfind q.id).1, ?_, hothers⟩
    exact ⟨_, hrow₂, hkeeps, rfl, rfl, rfl⟩
  have hsound : w₂.Sound := by
    refine hs.changed htable (hcalm.readOnly.trans hk.readOnly) hothers fun row'' h'' => ?_
    rw [hrow₂] at h''
    cases h''
    exact ⟨_, hkeeps⟩
  refine ⟨hmade.of_sameRecords ⟨rfl, rfl⟩ hsame, hsame.sound hsound, _,
    (hsame.row? q.id).trans hrow₂, ?_⟩
  exact Except.ok.inj (hread.symm.trans hkeeps.ofRow)

/-! ## What success means -/

/-- **How an operation that succeeded changed the records.** -/
inductive Effect (r : Registry σ) (now : CivilTime) (w w' : World σ) : Operation → Prop
  /-- An operation without a target changes no row. -/
  | unchanged {op : Operation} (htarget : op.target? = none)
    (hrows : ∀ id, w'.row? id = w.row? id) : Effect r now w w' op
  /-- An upsert makes a record that is new. -/
  | made {candidate : Plugin} (hvalid : r.Accepts candidate.withoutPreference)
    (hmade : w.Made now candidate.withoutPreference w') : Effect r now w w' (.upsert candidate)
  /-- A record is written over. -/
  | revised {op : Operation} {id : String} {row : Row} {p q : Plugin} (stamp : Stamp)
    (htarget : op.target? = some id) (hstamp : stamp.time = now)
    (hrevision : op.revision? stamp (p.timed row) = some q) (hvalid : op.IsValidated → r.Accepts q)
    (hwf : q.WellFormed) (hrewritten : w.Rewritten now id row p q w')
    (hactor : stamp.actor = r.actorAt op.user? w.asked) : Effect r now w w' op
  /-- A record is removed. -/
  | removed {id : String} {user : Option String} (hremoved : w.Removed id w') :
    Effect r now w w' (.delete id user)

/-- **What an operation that succeeded did, and what it gave.** -/
inductive Reply (r : Registry σ) (now : CivilTime) (w w' : World σ) : Operation → Answer → Prop
  /-- An operation without a target changes no row. -/
  | unchanged {op : Operation} {answer : Answer} (htarget : op.target? = none)
    (hrows : ∀ id, w'.row? id = w.row? id) : Reply r now w w' op answer
  /-- A record that is made is given as it is kept. -/
  | made {candidate : Plugin} {row : Row} (hvalid : r.Accepts candidate.withoutPreference)
    (hmade : w.Made now candidate.withoutPreference w') (hrow : w'.row? candidate.id = some row) :
    Reply r now w w' (.upsert candidate) (.plugin (candidate.withoutPreference.restored.timed row))
  /-- A record that is written over is given as it was to be written. -/
  | revised {op : Operation} {answer : Answer} {id : String} {row : Row} {p q : Plugin}
    (stamp : Stamp) (htarget : op.target? = some id) (hstamp : stamp.time = now)
    (hrevision : op.revision? stamp (p.timed row) = some q) (hvalid : op.IsValidated → r.Accepts q)
    (hwf : q.WellFormed) (hrewritten : w.Rewritten now id row p q w')
    (hreply : op.reply? stamp row p q = some answer)
    (hactor : stamp.actor = r.actorAt op.user? w.asked) : Reply r now w w' op answer
  /-- Of a record that is removed nothing is given. -/
  | removed {id : String} {user : Option String} (hremoved : w.Removed id w') :
    Reply r now w w' (.delete id user) .done

theorem Reply.effect {r : Registry σ} {now : CivilTime} {w w' : World σ} {op : Operation}
    {answer : Answer} (h : r.Reply now w w' op answer) : r.Effect now w w' op := by
  cases h with
  | unchanged htarget hrows => exact .unchanged htarget hrows
  | made hvalid hmade _ => exact .made hvalid hmade
  | revised stamp htarget hstamp hrevision hvalid hwf hrewritten _ hactor =>
      exact .revised stamp htarget hstamp hrevision hvalid hwf hrewritten hactor
  | removed hremoved => exact .removed hremoved

theorem dropReleases_replies {r : Registry σ} {now : CivilTime} {id : String} {version : Json}
    {change : Plugin → Plugin} {user : Option String} {w w' : World σ} {answer : Plugin}
    (hs : w.Sound) (hwf : ∀ p, p.WellFormed → (change p).WellFormed)
    (hid : ∀ p, (change p).id = p.id)
    (h : (r.dropReleases now id version change user).start w = (.ok answer, w')) :
    ∃ row p, w.Rewritten now id row p (change (p.timed row)) w' ∧ w'.Sound ∧
      (change (p.timed row)).WellFormed ∧
      w'.artifacts = r.artifactsWithout id version w.artifacts ∧
      answer = (change (p.timed row)).timed { row with lastModified := now } := by
  unfold dropReleases at h
  rw [start_bind_eq_ok] at h
  obtain ⟨current, w₁, hfind, h⟩ := h
  obtain ⟨row, p, hrow, hp, rfl, hk⟩ := find_eq_ok hs hfind
  dsimp only at h
  rw [start_bind_eq_ok] at h
  obtain ⟨written, w₂, hupdate, h⟩ := h
  have hq := hwf _ (hp.timed)
  rw [start_bind_eq_ok] at h
  obtain ⟨actor, w₃, hactor, h⟩ := h
  rw [start_bind_eq_ok] at h
  obtain ⟨_, w₄, haudit, h⟩ := h
  cases haudit
  rw [start_bind_eq_ok] at h
  obtain ⟨_, w₅, hdelete, h⟩ := h
  cases h
  have hk₃ := (keeps_actor r user).of_start hactor
  obtain ⟨hsame, ha⟩ := deleteArtifact_start r id version
    { w₃ with log := w₃.log ++ [⟨.releaseDeleted, _⟩] }
  rw [hdelete] at hsame ha
  have hsame₃ : w₂.SameRecords w' :=
    ⟨hsame.table.trans hk₃.table, hsame.readOnly.trans hk₃.readOnly⟩
  obtain ⟨hrw, hsound, hartifacts, hanswer⟩ :=
    rewritten_of_update hs hrow hp hk hq (hid _) hupdate hsame₃
  refine ⟨row, p, hrw, hsound, hq, ha.trans ?_, hanswer⟩
  exact congrArg _ (hk₃.artifacts.trans hartifacts)

theorem dropReleases_eq_ok {r : Registry σ} {now : CivilTime} {id : String} {version : Json}
    {change : Plugin → Plugin} {user : Option String} {w w' : World σ} {answer : Plugin}
    (hs : w.Sound) (hwf : ∀ p, p.WellFormed → (change p).WellFormed)
    (hid : ∀ p, (change p).id = p.id)
    (h : (r.dropReleases now id version change user).start w = (.ok answer, w')) :
    ∃ row p, w.Rewritten now id row p (change (p.timed row)) w' ∧ w'.Sound ∧
      (change (p.timed row)).WellFormed ∧
      w'.artifacts = r.artifactsWithout id version w.artifacts := by
  obtain ⟨row, p, hrw, hs', hq, ha, _⟩ := dropReleases_replies hs hwf hid h
  exact ⟨row, p, hrw, hs', hq, ha⟩

/-! ## Removing a record -/

/-- A release of a stored record can be removed. -/
theorem deleteRelease_of_row (r : Registry σ) (now : CivilTime) {id : String} (version : String)
    (user : Option String) {w : World σ} {row : Row} (hs : w.Sound) (hrow : w.row? id = some row) :
    ∃ answer w', (r.deleteRelease now id version user).start w = (.ok answer, w') := by
  obtain ⟨p, hp⟩ := hs.rows id row hrow
  obtain ⟨t, ht⟩ := hs.table
  obtain ⟨w₁, hk, hfind⟩ := find_of_row r hs hrow hp
  obtain ⟨hreleases, hextras, _⟩ := Plugin.writeBody_eq_ok.mp hp.body
  have hbody : ((p.timed row).drop version).writeBody = .ok ((p.timed row).drop version).body :=
    Plugin.writeBody_eq_ok.mpr
      ⟨fun release hr => hreleases release (List.mem_filter.mp hr).1, hextras, rfl⟩
  have hid : p.id = id := hp.id.trans (World.id_of_row? hrow)
  have hfound : t.find? ((p.timed row).drop version).id = some row := by
    rw [← World.row?_of_table ht, ← hrow, ← hid]
    rfl
  have hoctets : textFault? ((p.timed row).drop version).id = none := hp.wellFormed.textFault?_id
  obtain ⟨answer, w₂, hupdate⟩ := Catalog.update_of_row (hk.table.trans ht) r.timing now hoctets
    hfound hbody hp.tag (hk.readOnly.trans hs.writable)
  obtain ⟨result, w', htail⟩ := ((total_actor r user).bind fun actor =>
    (total_audit .releaseDeleted "delete_release" actor id (.str version)).bind fun _ =>
      (total_deleteArtifact r id (.str version)).bind fun _ => total_pure answer) w₂
  refine ⟨result, w', ?_⟩
  unfold deleteRelease dropReleases
  exact start_bind_eq_ok.mpr ⟨_, w₁, hfind, start_bind_eq_ok.mpr ⟨answer, w₂, hupdate, htail⟩⟩

/-- Removing releases one after the other goes through, and changes no other record. -/
theorem deleteReleases_of_row (r : Registry σ) (now : CivilTime) {id : String}
    (user : Option String) (releases : List Release) {w : World σ} (hs : w.Sound)
    (hrow : ∃ row, w.row? id = some row) :
    ∃ w', (forIn releases PUnit.unit fun release _ => do
        let _ ← r.deleteRelease now id release.version user
        pure (ForInStep.yield PUnit.unit) : Action σ PUnit).start w = (.ok ⟨⟩, w') ∧
      w'.Sound ∧ (∃ row, w'.row? id = some row) ∧ (∀ id', id' ≠ id → w'.row? id' = w.row? id') ∧
      w'.artifacts = releases.foldl
        (fun artifacts release => r.artifactsWithout id (.str release.version) artifacts)
        w.artifacts := by
  -- along the releases: each removal leaves a sound state in which the record is still there
  induction releases generalizing w with
  | nil => exact ⟨w, rfl, hs, hrow, fun _ _ => rfl, rfl⟩
  | cons release rest ih =>
      obtain ⟨row, hrow⟩ := hrow
      obtain ⟨answer, w₁, hstart⟩ := deleteRelease_of_row r now release.version user hs hrow
      obtain ⟨row₀, p, hrw, hs₁, _, ha⟩ :=
        dropReleases_eq_ok hs (fun p hp => hp.drop release.version) (fun _ => rfl) hstart
      obtain ⟨row₁, hrow₁, _⟩ := hrw.after
      obtain ⟨w', hloop, hs', hrow', hothers, ha'⟩ := ih hs₁ ⟨row₁, hrow₁⟩
      refine ⟨w', ?_, hs', hrow', ?_, ?_⟩
      · rw [List.forIn_cons, start_bind_eq_ok]
        refine ⟨ForInStep.yield PUnit.unit, w₁, ?_, hloop⟩
        exact start_bind_eq_ok.mpr ⟨answer, w₁, hstart, rfl⟩
      · exact fun id' hne => (hothers id' hne).trans (hrw.others id' hne)
      · rw [ha', ha]
        rfl

/-- An id without octets is refused. -/
theorem delete_of_fault (r : Registry σ) (now : CivilTime) {id : String} (user : Option String)
    {w : World σ} (hs : w.Sound) {fault : CatalogFault} (hid : textFault? id = some fault) :
    ∃ w', (r.delete now id user).start w = (.error (.catalog fault), w') ∧ w.Kept w' := by
  obtain ⟨t, ht⟩ := hs.table
  obtain ⟨w', hk, hbyId⟩ := Catalog.byId?_of_fault ht r.timing hid
  refine ⟨w', ?_, hk⟩
  unfold delete
  rw [start_bind, hbyId]

/-- **A record is removed as a whole.** On a sound state this does not fail for an id that has
octets: a record that is not there is passed over, and one that is there is gone, with an attempt to
remove the artifact of each release that it had. -/
theorem delete_start (r : Registry σ) (now : CivilTime) {id : String} (user : Option String)
    {w : World σ} (hs : w.Sound) (hid : textFault? id = none) :
    ∃ w', (r.delete now id user).start w = (.ok (), w') ∧ w.Removed id w' ∧ w'.Sound ∧
      (w.row? id = none → w.Kept w') ∧
      ∀ row p, w.row? id = some row → row.Holds p → w'.artifacts = p.releases.foldl
        (fun artifacts release => r.artifactsWithout id (.str release.version) artifacts)
        w.artifacts := by
  obtain ⟨t, ht⟩ := hs.table
  cases hrow : w.row? id with
  | none =>
      -- nothing is there to be removed
      have hfind := hrow
      rw [World.row?_of_table ht] at hfind
      obtain ⟨w', hk, hbyId⟩ := Catalog.byId?_of_missing ht r.timing hid hfind
      have hstart : (r.delete now id user).start w = (.ok (), w') := by
        unfold delete
        rw [start_bind, hbyId]
        rfl
      have hsame := hk.sameRecords
      refine ⟨w', hstart, ⟨(hsame.row? id).trans hrow, fun id' _ => hsame.row? id'⟩, hsame.sound hs,
        fun _ => hk, fun _ _ h => by cases h⟩
  | some row =>
      -- the releases go one by one, then the record, and the audit comes last
      obtain ⟨p, hp⟩ := hs.rows id row hrow
      have hfind := hrow
      rw [World.row?_of_table ht] at hfind
      obtain ⟨w₁, hk, hbyId⟩ := Catalog.byId?_of_row ht r.timing hid hfind hp.ofRow
      obtain ⟨w₂, hloop, hs₂, ⟨row₂, hrow₂⟩, hothers, ha⟩ := deleteReleases_of_row r now user
        p.releases (hk.sameRecords.sound hs) ⟨row, (hk.sameRecords.row? id).trans hrow⟩
      obtain ⟨t₂, ht₂⟩ := hs₂.table
      rw [World.row?_of_table ht₂] at hrow₂
      obtain ⟨w₃, hdelete, ht₃, hcalm⟩ := Catalog.delete_of_row ht₂ r.timing hid hrow₂ hs₂.writable
      obtain ⟨actor, w₄, hk₄, hactor⟩ := (total_actor r user).of_keeps (keeps_actor r user) w₃
      have ht₄ := hk₄.table.trans ht₃
      have hremoved : w.Removed id w₄ := by
        refine ⟨?_, fun id' hne => ?_⟩
        · rw [World.row?_of_table ht₄, Table.find?_erase, if_pos rfl]
        · rw [World.row?_of_table ht₄, Table.find?_erase, if_neg hne, ← World.row?_of_table ht₂,
            hothers id' hne, hk.sameRecords.row? id']
      refine ⟨{ w₄ with log := w₄.log ++ [⟨.pluginDeleted,
        Log.Audit.line ⟨.str "delete", .str actor, .str id, .null, .bool true⟩⟩] },
        ?_, ⟨hremoved.after, hremoved.others⟩, ?_, ?_, ?_⟩
      · unfold delete
        rw [start_bind, hbyId]
        dsimp only
        rw [start_bind_eq_ok]
        refine ⟨⟨⟩, w₂, hloop, start_bind_eq_ok.mpr ⟨(), w₃, hdelete, ?_⟩⟩
        exact start_bind_eq_ok.mpr ⟨actor, w₄, hactor, rfl⟩
      · refine hs.changed ht₄ ?_ hremoved.others fun row' h => ?_
        · exact hk₄.readOnly.trans (hcalm.readOnly.trans (hs₂.writable.trans hs.writable.symm))
        · cases hremoved.after.symm.trans h
      · intro h
        cases h
      · intro row' p' h hp'
        cases h
        rw [hp'.unique hp, ← hk.artifacts, ← ha]
        exact hk₄.artifacts.trans hcalm.artifacts

/-! ## One operation after the other -/

/-- An entry in the log comes between a change of the records and the answer. -/
theorem noted_eq_ok {α : Type} {topic : Log.Topic} {message : String} {a b : α} {w w' : World σ}
    (h : (Action.note topic message >>= fun _ => pure a : Action σ α).start w = (.ok b, w')) :
    b = a ∧ w.SameRecords w' := by
  cases h
  exact ⟨rfl, rfl, rfl⟩

/-- A record that is validated and then written over the stored one. -/
theorem rewritten_of_validated {r : Registry σ} {now : CivilTime} {w w₁ w' : World σ} {id : String}
    {row : Row} {p q answer : Plugin} {after : Plugin → Action σ Plugin} (hs : w.Sound)
    (hrow : w.row? id = some row) (hp : row.Holds p) (hk : w.Kept w₁) (hq : q.WellFormed)
    (hid : q.id = p.id)
    (hafter : ∀ written {b w₂ w₃}, (after written).start w₂ = (.ok b, w₃) →
      b = written ∧ w₂.SameRecords w₃)
    (h : (r.validate q >>= fun _ => Catalog.update r.timing now q.id q >>= after).start w₁
      = (.ok answer, w')) :
    r.Accepts q ∧ w.Rewritten now id row p q w' ∧ w'.Sound ∧
      answer = q.timed { row with lastModified := now } := by
  rw [start_bind_eq_ok] at h
  obtain ⟨_, w₂, hvalid, h⟩ := h
  have hk₂ := hk.trans ((keeps_validate _ _).of_start hvalid)
  rw [start_bind_eq_ok] at h
  obtain ⟨written, w₃, hupdate, h⟩ := h
  obtain ⟨rfl, hsame⟩ := hafter written h
  obtain ⟨hrw, hs', _, hanswer⟩ := rewritten_of_update hs hrow hp hk₂ hq hid hupdate hsame
  exact ⟨validate_eq_ok hvalid, hrw, hs', hanswer⟩

/-- What a change of a release begins with: the actor is asked for, and the release is copied. -/
theorem prepared_eq_ok {r : Registry σ} {user : Option String} {canCopy : Bool} {α : Type} {a : α}
    {next : String → Action σ α} {w w' : World σ}
    (h : (r.actor user >>= fun actor => requireCopy canCopy >>= fun _ => next actor).start w
      = (.ok a, w')) :
    ∃ w₁, w.Kept w₁ ∧ (next (r.actorAt user w.asked)).start w₁ = (.ok a, w') := by
  rw [start_bind_eq_ok] at h
  obtain ⟨actor, w₁, hactor, h⟩ := h
  rw [start_bind_eq_ok] at h
  obtain ⟨_, w₂, hcopy, h⟩ := h
  have hk := (keeps_actor _ _).of_start hactor
  cases actor_eq_ok hactor
  exact ⟨w₂, hk.trans ((keeps_requireCopy _).of_start hcopy), h⟩

theorem upsert_replies {r : Registry σ} {now : CivilTime} {candidate answer : Plugin}
    {w w' : World σ} (hs : w.Sound) (hwf : candidate.WellFormed)
    (h : (r.upsert now candidate).start w = (.ok answer, w')) :
    r.Reply now w w' (.upsert candidate) (.plugin answer) ∧ w'.Sound := by
  unfold upsert at h
  rw [start_bind_eq_ok] at h
  obtain ⟨_, w₁, hcopy, h⟩ := h
  have hk₁ := (keeps_requireCopy _).of_start hcopy
  dsimp only at h
  rw [start_bind_eq_ok] at h
  obtain ⟨found, w₂, hfound, h⟩ := h
  have hk₂ := hk₁.trans ((Catalog.keeps_byId? _ _).of_start hfound)
  rcases byId?_eq_ok (hk₁.sameRecords.sound hs) hfound with ⟨rfl, _⟩ | ⟨row, p, hrow, hp, rfl⟩
  · -- the record is new
    dsimp only at h
    rw [start_bind_eq_ok] at h
    obtain ⟨_, w₃, hvalid, h⟩ := h
    have hk₃ := hk₂.trans ((keeps_validate _ _).of_start hvalid)
    rw [start_bind_eq_ok] at h
    obtain ⟨created, w₄, hinsert, h⟩ := h
    obtain ⟨rfl, hsame⟩ := noted_eq_ok h
    obtain ⟨hmade, hs', row, hrow, rfl⟩ :=
      made_of_insert hs hk₃ hwf.withoutPreference hinsert hsame
    exact ⟨.made (validate_eq_ok hvalid) hmade hrow, hs'⟩
  · -- there is a record, and its releases come first
    rw [hk₁.sameRecords.row?] at hrow
    dsimp only at h
    split at h
    · cases h
    · rename_i hclash
      have hnone := Option.eq_none_iff_forall_ne_some.mpr hclash
      have hq := hp.timed.mergedInto hwf.withoutPreference
      have hid : candidate.id = p.id := (hp.id.trans (World.id_of_row? hrow)).symm
      obtain ⟨hvalid, hrw, hs', rfl⟩ :=
        rewritten_of_validated hs hrow hp hk₂ hq hid (fun _ _ _ _ => noted_eq_ok) h
      have hnew : ((p.timed row).firstClash? candidate).isNone := by
        unfold Plugin.firstClash? at hnone ⊢
        rw [Plugin.versions_withoutPreference] at hnone
        rw [hnone]
        rfl
      exact ⟨.revised ⟨now, r.actorAt none w.asked⟩ rfl rfl (if_pos hnew) (fun _ => hvalid) hq hrw
        rfl rfl, hs'⟩

theorem createRelease_replies {r : Registry σ} {now : CivilTime} {id : String} {release : Release}
    {user : Option String} {answer : Plugin} {w w' : World σ} (hs : w.Sound)
    (hwf : release.WellFormed)
    (h : (r.createRelease now id release user).start w = (.ok answer, w')) :
    r.Reply now w w' (.createRelease id release user) (.plugin answer) ∧ w'.Sound := by
  unfold createRelease at h
  obtain ⟨w₁, hk₁, h⟩ := prepared_eq_ok h
  rw [start_bind_eq_ok] at h
  obtain ⟨current, w₂, hfind, h⟩ := h
  obtain ⟨row, p, hrow, hp, rfl, hk⟩ := find_eq_ok (hk₁.sameRecords.sound hs) hfind
  rw [hk₁.sameRecords.row?] at hrow
  have hq := hp.timed.append (hwf.stamped ⟨now, r.actorAt user w.asked⟩)
    ⟨now, r.actorAt user w.asked⟩
  obtain ⟨hvalid, hrw, hs', rfl⟩ := rewritten_of_validated hs hrow hp (hk₁.trans hk) hq rfl
    (fun _ _ _ _ => noted_eq_ok) h
  exact ⟨.revised _ rfl rfl rfl (fun _ => hvalid) hq hrw rfl rfl, hs'⟩

theorem upsertRelease_replies {r : Registry σ} {now : CivilTime} {id : String} {release : Release}
    {user : Option String} {answer : Plugin} {w w' : World σ} (hs : w.Sound)
    (hwf : release.WellFormed)
    (h : (r.upsertRelease now id release user).start w = (.ok answer, w')) :
    r.Reply now w w' (.upsertRelease id release user) (.plugin answer) ∧ w'.Sound := by
  unfold upsertRelease at h
  obtain ⟨w₁, hk₁, h⟩ := prepared_eq_ok h
  rw [start_bind_eq_ok] at h
  obtain ⟨current, w₂, hfind, h⟩ := h
  obtain ⟨row, p, hrow, hp, rfl, hk⟩ := find_eq_ok (hk₁.sameRecords.sound hs) hfind
  rw [hk₁.sameRecords.row?] at hrow
  split at h
  · cases h
  · rename_i hfound
    have hmem : release.version ∈ (p.timed row).versions := by
      rw [← Plugin.release?_isSome, Option.isSome_iff_ne_none]
      exact fun hnone => hfound (Option.isNone_iff_eq_none.mpr hnone)
    have hq := hp.timed.replace (hwf.stamped ⟨now, r.actorAt user w.asked⟩)
      ⟨now, r.actorAt user w.asked⟩
    obtain ⟨hvalid, hrw, hs', rfl⟩ := rewritten_of_validated hs hrow hp (hk₁.trans hk) hq rfl
      (fun _ _ _ _ => noted_eq_ok) h
    exact ⟨.revised _ rfl rfl (if_pos hmem) (fun _ => hvalid) hq hrw rfl rfl, hs'⟩

theorem preferRelease_replies {r : Registry σ} {now : CivilTime} {id version : String} {flag : Bool}
    {user : Option String} {answer : Release} {w w' : World σ} (hs : w.Sound)
    (h : (r.preferRelease now id version (.bool flag) user).start w = (.ok answer, w')) :
    r.Reply now w w' (.preferRelease id (.str version) (.bool flag) user) (.release answer) ∧
      w'.Sound := by
  unfold preferRelease at h
  rw [start_bind_eq_ok] at h
  obtain ⟨current, w₁, hfind, h⟩ := h
  obtain ⟨row, p, hrow, hp, rfl, hk₁⟩ := find_eq_ok hs hfind
  split at h
  · cases h
  · rename_i release hrelease
    rw [start_bind_eq_ok] at h
    obtain ⟨actor, w₂, hactor, h⟩ := h
    have hk₂ := hk₁.trans ((keeps_actor _ _).of_start hactor)
    -- finding the record asked nobody, so it is the state before that decides who acts
    have hasked : w₁.asked = w.asked := (Catalog.unasking_byId r.timing id).of_start hfind
    have hname : actor = r.actorAt user w.asked := hasked ▸ actor_eq_ok hactor
    dsimp only at h
    rw [start_bind_eq_ok] at h
    obtain ⟨written, w₃, hupdate, h⟩ := h
    have hmem := (Plugin.release?_eq_some hrelease).1
    have hq := hp.timed.replace
      (((hp.timed.releases release hmem).withPreference flag).stamped ⟨now, actor⟩) ⟨now, actor⟩
    obtain ⟨rfl, hsame⟩ := noted_eq_ok h
    obtain ⟨hrw, hs', _⟩ := rewritten_of_update hs hrow hp hk₂ hq rfl hupdate hsame
    refine ⟨.revised ⟨now, actor⟩ rfl rfl ?_ (fun hvalid => hvalid.elim) hq hrw ?_ hname, hs'⟩
    · simp only [Operation.revision?, hrelease]
      rfl
    · have hstored : p.release? version = some release := hrelease
      simp only [Operation.reply?, hstored]
      rfl

/-- **Every operation that succeeds on a sound state is answered for what it did, and leaves a sound
state.** -/
theorem perform_replies {r : Registry σ} {now : CivilTime} {op : Operation} {answer : Answer}
    {w w' : World σ} (hs : w.Sound) (hop : op.Proper)
    (h : (r.perform now op).start w = (.ok answer, w')) :
    r.Reply now w w' op answer ∧ w'.Sound := by
  have hread : w.Kept w' → op.target? = none → r.Reply now w w' op answer ∧ w'.Sound :=
    fun hk ht => ⟨.unchanged ht hk.sameRecords.row?, hk.sameRecords.sound hs⟩
  unfold perform at h
  cases op with
  | findAll => exact hread (((Catalog.keeps_all _).map _).of_start h) rfl
  | findByService service => exact hread (((keeps_findByService _ _).map _).of_start h) rfl
  | find id => exact hread (((Catalog.keeps_byId _ _).map _).of_start h) rfl
  | validate plugin => exact hread (((keeps_validate _ _).map _).of_start h) rfl
  | upsert candidate =>
      obtain ⟨_, hrun, rfl⟩ := start_map_eq_ok.mp h
      exact upsert_replies hs hop hrun
  | delete id user =>
      obtain ⟨_, hrun, rfl⟩ := start_map_eq_ok.mp h
      cases hid : textFault? id with
      | some fault =>
          obtain ⟨w₁, hstart, _⟩ := delete_of_fault r now user hs hid
          cases hstart.symm.trans hrun
      | none =>
          obtain ⟨w₁, hstart, hremoved, hs', _⟩ := delete_start r now user hs hid
          rw [hstart] at hrun
          cases hrun
          exact ⟨.removed hremoved, hs'⟩
  | createRelease id release user =>
      obtain ⟨_, hrun, rfl⟩ := start_map_eq_ok.mp h
      exact createRelease_replies hs hop hrun
  | upsertRelease id release user =>
      obtain ⟨_, hrun, rfl⟩ := start_map_eq_ok.mp h
      exact upsertRelease_replies hs hop hrun
  | deleteRelease id version user =>
      obtain ⟨version, rfl⟩ := hop
      obtain ⟨_, hrun, rfl⟩ := start_map_eq_ok.mp h
      obtain ⟨row, p, hrw, hs', hq, _, rfl⟩ :=
        dropReleases_replies hs (fun p hp => hp.drop version) (fun _ => rfl) hrun
      exact ⟨.revised ⟨now, r.actorAt user w.asked⟩ rfl rfl rfl (fun hvalid => hvalid.elim) hq hrw rfl
        rfl, hs'⟩
  | preferRelease id version preference user =>
      obtain ⟨⟨version, rfl⟩, flag, rfl⟩ := hop
      obtain ⟨_, hrun, rfl⟩ := start_map_eq_ok.mp h
      exact preferRelease_replies hs hrun

/-- **Every operation that succeeds on a sound state has its effect, and leaves a sound state.** -/
theorem perform_eq_ok {r : Registry σ} {now : CivilTime} {op : Operation} {answer : Answer}
    {w w' : World σ} (hs : w.Sound) (hop : op.Proper)
    (h : (r.perform now op).start w = (.ok answer, w')) : r.Effect now w w' op ∧ w'.Sound := by
  obtain ⟨hreply, hs'⟩ := perform_replies hs hop h
  exact ⟨hreply.effect, hs'⟩

end Registry

end PluginRegistry
