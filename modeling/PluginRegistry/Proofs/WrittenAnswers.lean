import PluginRegistry.Proofs.Effects

/-!
# Which answers can be written

The body of a record is written before anything is stored, so what cannot be written is refused in
time. The answer of a change is written only after it was stored. A record that was made is answered
as it is read back from its body, which can be written again. All other changes answer with the
record that they were about to store, and this one has more than its body: a body leaves out entries
that are undeclared and yet under the name of a time. One of these that cannot be written is the
only reason why the answer of a change that was made cannot be written.
-/

namespace PluginRegistry

/-! ## Entries that are left over -/

theorem mem_putMember {α : Type} {key : String} {value : α} {members : List (String × α)}
    {m : String × α} (h : m ∈ putMember key value members) : m = (key, value) ∨ m ∈ members := by
  induction members with
  | nil => exact .inl (List.mem_singleton.mp h)
  | cons first rest ih =>
      unfold putMember at h
      split at h
      · exact (List.mem_cons.mp h).imp_right (List.mem_cons_of_mem _)
      · rcases List.mem_cons.mp h with rfl | h
        · exact .inr List.mem_cons_self
        · exact (ih h).imp_right (List.mem_cons_of_mem _)

namespace Schema

theorem mem_extrasFrom_toEntries {taken : List String} {kept : Extras}
    {members : List (String × Json)} :
    ∀ e ∈ extrasFrom taken kept (Json.toEntries members),
      e ∈ kept ∨ ∃ m ∈ members, m.1 ∉ taken ∧ e = (m.1, m.2.toDocument) := by
  induction members generalizing kept with
  | nil => exact fun e he => .inl he
  | cons m rest ih =>
      obtain ⟨key, value⟩ := m
      intro e he
      have hlater : (∃ m ∈ rest, m.1 ∉ taken ∧ e = (m.1, m.2.toDocument)) →
          ∃ m ∈ (key, value) :: rest, m.1 ∉ taken ∧ e = (m.1, m.2.toDocument) :=
        fun ⟨m, hm, h⟩ => ⟨m, List.mem_cons_of_mem _ hm, h⟩
      rw [Json.toEntries, extrasFrom] at he
      dsimp only [textOf?] at he
      split at he
      · exact (ih e he).imp_right hlater
      · rename_i htaken
        rcases ih e he with hkept | hrest
        · rcases mem_putMember hkept with rfl | hkept
          · exact .inr ⟨_, List.mem_cons_self, by simpa using htaken, rfl⟩
          · exact .inl hkept
        · exact .inr (hlater hrest)

/-- What is left over in a written object was not declared when it was written. -/
theorem mem_of_extras_written {fields : List Field} {declared : List (String × Json)}
    {extras left : Extras}
    (hdeclared : ∀ m ∈ declared, ∃ field ∈ fields, field.key = m.1)
    (h : Schema.extras fields (Json.toEntries (declared ++ extras.payload)) = .ok left) :
    ∀ e ∈ left, ∃ e' ∈ extras, e = (e'.1, e'.2.payload.toDocument) := by
  unfold Schema.extras at h
  rw [keyFaults_toEntries] at h
  cases h
  intro e he
  rcases mem_extrasFrom_toEntries e he with hnone | ⟨m, hm, htaken, rfl⟩
  · cases hnone
  · rcases List.mem_append.mp hm with hm' | hm'
    · obtain ⟨field, hfield, hkey⟩ := hdeclared m hm'
      refine absurd ?_ htaken
      rw [← hkey]
      exact mem_taken hfield (hkey ▸ List.mem_map_of_mem hm)
    · obtain ⟨e', he', rfl⟩ := List.mem_map.mp hm'
      exact ⟨e', he', rfl⟩

end Schema

/-! ## Records that are read back -/

/-- What is read back from entries that can be written can be written. -/
theorem Extras.writeFault?_of_read_back {extras left : Extras} (h : extras.writeFault? = none)
    (hleft : ∀ e ∈ left, ∃ e' ∈ extras, e = (e'.1, e'.2.payload.toDocument)) :
    left.writeFault? = none := by
  rw [Extras.writeFault?_eq_none] at h ⊢
  intro e he
  obtain ⟨e', he', rfl⟩ := hleft e he
  exact Document.writable_payload e'.2 _ (h e' he')

namespace Release

/-- A release that is read back from a written one can be written. -/
theorem writeFault?_of_read_back {r r' : Release} (h : r.writeFault? = none)
    (hread : ofDocument r.toJson.toDocument = .ok r') : r'.writeFault? = none := by
  obtain ⟨_, hextras⟩ := (Option.orElse_eq_none _ _).mp h
  obtain ⟨members, hmembers, _, hflagged, hleft⟩ := ofDocument_eq_ok hread
  cases hmembers
  refine (Option.orElse_eq_none _ _).mpr ⟨?_, ?_⟩
  · unfold statedPreference
    rw [hflagged]
    rfl
  · refine Extras.writeFault?_of_read_back hextras (Schema.mem_of_extras_written ?_ hleft)
    intro m hm
    obtain ⟨member, hmember, rfl⟩ := List.mem_map.mp hm
    exact ⟨member.1, List.mem_map_of_mem (f := Prod.fst) hmember, rfl⟩

end Release

namespace Plugin

theorem write_eq_ok {p : Plugin} :
    p.write = .ok p.toJson ↔
      (∀ r ∈ p.releases, r.writeFault? = none) ∧ p.extras.writeFault? = none := by
  rw [← releaseFault?_eq_none, ← Option.orElse_eq_none]
  unfold write
  split
  · rename_i fault hfault
    simp [hfault]
  · rename_i hnone
    simp [hnone]

/-- The releases of a record that is read back from its body are read from those in it. -/
theorem releases_of_read_body {p q : Plugin} (h : read p.body.toDocument = .ok q) :
    ∀ r' ∈ q.releases, ∃ r ∈ p.releases, Release.ofDocument r.toJson.toDocument = .ok r' := by
  obtain ⟨-, hreleases, -⟩ := parts_of_ofDocument (read_eq_ok h)
  unfold Schema.optional at hreleases
  rw [find?_body 4 rfl] at hreleases
  obtain ⟨items, hitems, hfrom⟩ := Schema.list_eq_ok (Schema.Checked.within_eq_ok.mp hreleases)
  cases hitems
  intro r' hr'
  obtain ⟨item, hitem, hr⟩ := hfrom r' hr'
  obtain ⟨r, hmem, rfl⟩ := List.mem_map.mp hitem
  exact ⟨r, hmem, hr⟩

/-- A record that is read back from its body can be written. -/
theorem write_of_read_body {p q : Plugin} {body : Json} (hbody : p.writeBody = .ok body)
    (hread : read body.toDocument = .ok q) :
    (∀ r ∈ q.releases, r.writeFault? = none) ∧ q.extras.writeFault? = none := by
  obtain ⟨hreleases, hextras, rfl⟩ := writeBody_eq_ok.mp hbody
  constructor
  · intro r' hr'
    obtain ⟨r, hr, hr''⟩ := releases_of_read_body hread r' hr'
    exact Release.writeFault?_of_read_back (hreleases r hr) hr''
  · obtain ⟨members, hmembers, _, _, hleft⟩ := ofDocument_eq_ok (read_eq_ok hread)
    cases hmembers
    refine Extras.writeFault?_of_read_back hextras (Schema.mem_of_extras_written ?_ hleft)
    intro m hm
    have hdeclared : m.1 ∈ fields.map Schema.Field.key :=
      (sublist_keys_bodyMembers p).subset (List.mem_map_of_mem hm)
    obtain ⟨field, hfield, hkey⟩ := List.mem_map.mp hdeclared
    exact ⟨field, hfield, hkey⟩

/-- There is an undeclared entry under the name of a time that cannot be written. -/
def HasStray (p : Plugin) : Prop :=
  ∃ e ∈ p.extras, isTimeKey e.1 = true ∧ e.2.writeFault? ≠ none

/-- A record whose body can be written can be written as a whole, but for such an entry. -/
theorem write_of_writeBody {p : Plugin} {body : Json} (h : p.writeBody = .ok body) :
    p.write = .ok p.toJson ∨ p.HasStray := by
  obtain ⟨hreleases, hextras, -⟩ := writeBody_eq_ok.mp h
  cases hfault : p.extras.writeFault? with
  | none => exact .inl (write_eq_ok.mpr ⟨hreleases, hfault⟩)
  | some fault =>
      obtain ⟨e, he, hwrite⟩ := List.exists_of_findSome?_eq_some hfault
      refine .inr ⟨e, he, ?_, by rw [hwrite]; nofun⟩
      -- all other entries are in the body
      by_contra hkey
      have hbody : e ∈ p.bodyExtras := List.mem_filter.mpr ⟨he, by simpa using hkey⟩
      rw [Extras.writeFault?_eq_none.mp hextras e hbody] at hwrite
      cases hwrite

end Plugin

/-! ## Answers -/

/-- The answer can be written. -/
def Answer.Written : Answer → Prop
  | .plugin p => p.write = .ok p.toJson
  | .release r => r.write = .ok r.toJson
  | .plugins found => ∀ p ∈ found, p.write = .ok p.toJson
  | .done => True

namespace Registry

open PluginRegistry.Action

variable {σ : Type}

/-- What only reads keeps everything. -/
theorem keeps_perform (r : Registry σ) (now : CivilTime) {op : Operation}
    (h : op.target? = none) : (r.perform now op).Keeps := by
  cases op with
  | findAll => exact (Catalog.keeps_all _).map _
  | findByService service => exact (keeps_findByService _ _).map _
  | find id => exact (Catalog.keeps_byId _ _).map _
  | validate plugin => exact (keeps_validate _ _).map _
  | _ => cases h

/-- The answer of a change that writes over a record. -/
theorem written_of_update {timing : Timing} {now : CivilTime} {id : String} {q answer : Plugin}
    {w w' : World σ} {t : Table} (ht : w.table = some t)
    (h : (Catalog.update timing now id q).start w = (.ok answer, w')) :
    (∀ r ∈ q.releases, r.writeFault? = none) ∧
      (answer.write = .ok answer.toJson ∨ answer.HasStray) := by
  obtain ⟨row, body, _, _, hbody, _, _, _, _, rfl⟩ := Catalog.update_eq_ok ht h
  exact ⟨(Plugin.writeBody_eq_ok.mp hbody).1, Plugin.write_of_writeBody hbody⟩

theorem written_of_insert {timing : Timing} {now : CivilTime} {id : String} {q answer : Plugin}
    {w w' : World σ} {t : Table} (ht : w.table = some t)
    (h : (Catalog.insert timing now id q).start w = (.ok answer, w')) :
    answer.write = .ok answer.toJson := by
  obtain ⟨body, _, _, hbody, _, _, _, _, _, hrow⟩ := Catalog.insert_eq_ok ht h
  unfold Plugin.ofRow at hrow
  cases hread : Plugin.read body.toDocument with
  | error rejection =>
      dsimp only at hrow
      rw [hread] at hrow
      cases hrow
  | ok p =>
      dsimp only at hrow
      rw [hread] at hrow
      cases hrow
      obtain ⟨hreleases, hextras⟩ := Plugin.write_of_read_body hbody hread
      exact Plugin.write_eq_ok.mpr ⟨hreleases, hextras⟩

/-- A record is written over a stored one, and then there comes nothing but an entry in the log. -/
theorem written_of_update_noted {timing : Timing} {now : CivilTime} {id : String}
    {q answer : Plugin} {topic : Log.Topic} {message : Plugin → String} {w w' : World σ} {t : Table}
    (ht : w.table = some t)
    (h : (Catalog.update timing now id q >>= fun written =>
      Action.note topic (message written) >>= fun _ => pure written : Action σ Plugin).start w
        = (.ok answer, w')) :
    answer.write = .ok answer.toJson ∨ answer.HasStray := by
  obtain ⟨written, w₁, hupdate, h⟩ := start_bind_eq_ok.mp h
  obtain ⟨rfl, -⟩ := noted_eq_ok h
  exact (written_of_update ht hupdate).2

theorem written_of_upsert {r : Registry σ} {now : CivilTime} {candidate answer : Plugin}
    {w w' : World σ} {t : Table} (ht : w.table = some t)
    (h : (r.upsert now candidate).start w = (.ok answer, w')) :
    answer.write = .ok answer.toJson ∨ answer.HasStray := by
  unfold upsert at h
  obtain ⟨_, w₁, hcopy, h⟩ := start_bind_eq_ok.mp h
  have hk₁ := (keeps_requireCopy _).of_start hcopy
  obtain ⟨found, w₂, hfound, h⟩ := start_bind_eq_ok.mp h
  have hk₂ := hk₁.trans ((Catalog.keeps_byId? _ _).of_start hfound)
  cases found with
  | none =>
      obtain ⟨_, w₃, hvalid, h⟩ := start_bind_eq_ok.mp h
      have hk₃ := hk₂.trans ((keeps_validate _ _).of_start hvalid)
      obtain ⟨created, w₄, hinsert, h⟩ := start_bind_eq_ok.mp h
      obtain ⟨rfl, -⟩ := noted_eq_ok h
      exact .inl (written_of_insert (hk₃.table.trans ht) hinsert)
  | some current =>
      dsimp only at h
      split at h
      · cases h
      · obtain ⟨_, w₃, hvalid, h⟩ := start_bind_eq_ok.mp h
        have hk₃ := hk₂.trans ((keeps_validate _ _).of_start hvalid)
        exact written_of_update_noted (hk₃.table.trans ht) h

theorem written_of_createRelease {r : Registry σ} {now : CivilTime} {id : String}
    {release : Release} {user : Option String} {answer : Plugin} {w w' : World σ} {t : Table}
    (ht : w.table = some t)
    (h : (r.createRelease now id release user).start w = (.ok answer, w')) :
    answer.write = .ok answer.toJson ∨ answer.HasStray := by
  unfold createRelease at h
  obtain ⟨w₁, hk₁, h⟩ := prepared_eq_ok h
  obtain ⟨current, w₂, hfind, h⟩ := start_bind_eq_ok.mp h
  have hk₂ := hk₁.trans ((Catalog.keeps_byId _ _).of_start hfind)
  obtain ⟨_, w₃, hvalid, h⟩ := start_bind_eq_ok.mp h
  have hk₃ := hk₂.trans ((keeps_validate _ _).of_start hvalid)
  exact written_of_update_noted (hk₃.table.trans ht) h

theorem written_of_upsertRelease {r : Registry σ} {now : CivilTime} {id : String}
    {release : Release} {user : Option String} {answer : Plugin} {w w' : World σ} {t : Table}
    (ht : w.table = some t)
    (h : (r.upsertRelease now id release user).start w = (.ok answer, w')) :
    answer.write = .ok answer.toJson ∨ answer.HasStray := by
  unfold upsertRelease at h
  obtain ⟨w₁, hk₁, h⟩ := prepared_eq_ok h
  obtain ⟨current, w₂, hfind, h⟩ := start_bind_eq_ok.mp h
  have hk₂ := hk₁.trans ((Catalog.keeps_byId _ _).of_start hfind)
  split at h
  · cases h
  · obtain ⟨_, w₃, hvalid, h⟩ := start_bind_eq_ok.mp h
    have hk₃ := hk₂.trans ((keeps_validate _ _).of_start hvalid)
    exact written_of_update_noted (hk₃.table.trans ht) h

theorem written_of_dropReleases {r : Registry σ} {now : CivilTime} {id : String} {version : Json}
    {change : Plugin → Plugin} {user : Option String} {answer : Plugin} {w w' : World σ} {t : Table}
    (ht : w.table = some t)
    (h : (r.dropReleases now id version change user).start w = (.ok answer, w')) :
    answer.write = .ok answer.toJson ∨ answer.HasStray := by
  unfold dropReleases at h
  obtain ⟨current, w₁, hfind, h⟩ := start_bind_eq_ok.mp h
  have hk₁ := (Catalog.keeps_byId _ _).of_start hfind
  obtain ⟨written, w₂, hupdate, h⟩ := start_bind_eq_ok.mp h
  have hanswer := (written_of_update (hk₁.table.trans ht) hupdate).2
  -- the audit and the attempt to remove the artifact do not touch the answer
  obtain ⟨_, w₃, _, h⟩ := start_bind_eq_ok.mp h
  obtain ⟨_, w₄, _, h⟩ := start_bind_eq_ok.mp h
  obtain ⟨_, w₅, _, h⟩ := start_bind_eq_ok.mp h
  cases h
  exact hanswer

theorem written_of_preferRelease {r : Registry σ} {now : CivilTime} {id version : String}
    {preference : Json} {user : Option String} {answer : Release} {w w' : World σ} {t : Table}
    (ht : w.table = some t)
    (h : (r.preferRelease now id version preference user).start w = (.ok answer, w')) :
    answer.write = .ok answer.toJson := by
  unfold preferRelease at h
  obtain ⟨current, w₁, hfind, h⟩ := start_bind_eq_ok.mp h
  have hk₁ := (Catalog.keeps_byId _ _).of_start hfind
  split at h
  · cases h
  · rename_i release hrelease
    obtain ⟨actor, w₂, hactor, h⟩ := start_bind_eq_ok.mp h
    have hk₂ := hk₁.trans ((keeps_actor _ _).of_start hactor)
    obtain ⟨written, w₃, hupdate, h⟩ := start_bind_eq_ok.mp h
    have hreleases := (written_of_update (hk₂.table.trans ht) hupdate).1
    obtain ⟨rfl, -⟩ := noted_eq_ok h
    -- the answer is one of the releases that were written
    have hfault := hreleases _ (Plugin.release?_eq_some (Plugin.release?_replace _ _ current)).1
    unfold Release.write
    rw [hfault]

/-- **The answer of a change that was made can be written, or it is a record with an undeclared
entry under the name of a time that cannot be.** -/
theorem written_of_perform {r : Registry σ} {now : CivilTime} {op : Operation} {answer : Answer}
    {w w' : World σ} {t : Table} (ht : w.table = some t) (htarget : op.target? ≠ none)
    (h : (r.perform now op).start w = (.ok answer, w')) :
    answer.Written ∨ ∃ p, answer = .plugin p ∧ p.HasStray := by
  have hplugin : ∀ {p : Plugin}, p.write = .ok p.toJson ∨ p.HasStray →
      (Answer.plugin p).Written ∨ ∃ q, Answer.plugin p = .plugin q ∧ q.HasStray :=
    fun hp => hp.imp_right fun hstray => ⟨_, rfl, hstray⟩
  cases op with
  | findAll | findByService | find | validate => exact absurd rfl htarget
  | upsert candidate =>
      obtain ⟨_, hrun, rfl⟩ := start_map_eq_ok.mp h
      exact hplugin (written_of_upsert ht hrun)
  | delete id user =>
      obtain ⟨_, _, rfl⟩ := start_map_eq_ok.mp h
      exact .inl trivial
  | createRelease id release user =>
      obtain ⟨_, hrun, rfl⟩ := start_map_eq_ok.mp h
      exact hplugin (written_of_createRelease ht hrun)
  | upsertRelease id release user =>
      obtain ⟨_, hrun, rfl⟩ := start_map_eq_ok.mp h
      exact hplugin (written_of_upsertRelease ht hrun)
  | deleteRelease id version user =>
      cases version with
      | str version =>
          obtain ⟨_, hrun, rfl⟩ := start_map_eq_ok.mp h
          exact hplugin (written_of_dropReleases ht hrun)
      | _ =>
          obtain ⟨_, hrun, rfl⟩ := start_map_eq_ok.mp h
          exact hplugin (written_of_dropReleases ht hrun)
  | preferRelease id version preference user =>
      cases version with
      | str version =>
          obtain ⟨_, hrun, rfl⟩ := start_map_eq_ok.mp h
          exact .inl (written_of_preferRelease ht hrun)
      | _ =>
          -- what is no text is no version, so there is no answer
          obtain ⟨_, hrun, rfl⟩ := start_map_eq_ok.mp h
          obtain ⟨_, _, _, hrefuse⟩ := start_bind_eq_ok.mp hrun
          cases hrefuse

end Registry

end PluginRegistry
