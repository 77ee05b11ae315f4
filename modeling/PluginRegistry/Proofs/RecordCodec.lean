import PluginRegistry.Plugin.Changes
import PluginRegistry.Proofs.MomentText
import PluginRegistry.Proofs.Payload

/-!
# Records read back from what was written

A record that is stored is read again before every change, so the reader and the writer have to
agree. `WellFormed` is what every record keeps that was read from a document with texts for keys:
the versions have no blanks around them, the flag is a flag, and an undeclared entry is under a key
of its own that no field has. Of a well-formed record the body is read as the record itself, but for
the payload of the undeclared entries, which is settled from then on: writing the record that was
read gives the same body.
-/

namespace PluginRegistry

namespace Schema

/-! ## Fields of a written object -/

theorem lookup_toEntries (members : List (String × Json)) (key : String) :
    lookup (Json.toEntries members) key = (members.lookup key).map Json.toDocument := by
  unfold lookup
  induction members with
  | nil => rfl
  | cons m rest ih =>
      obtain ⟨k, v⟩ := m
      rw [Json.toEntries, List.find?_cons, List.lookup_cons]
      by_cases hk : k = key
      · subst hk
        simp
      · have h1 : decide (Scalar.text k = Scalar.text key) = false := by simpa using hk
        have h2 : (key == k) = false := by simpa using fun h : key = k => hk h.symm
        rw [h1, h2]
        exact ih

theorem find?_of_lookup {field : Field} {members : List (String × Json)} {value : Json}
    (h : members.lookup field.key = some value) :
    field.find? (Json.toEntries members) = some (field.key, value.toDocument) := by
  unfold Field.find?
  rw [lookup_toEntries, h]
  rfl

theorem find?_eq_none_of_lookup {field : Field} {members : List (String × Json)}
    (h1 : members.lookup field.key = none) (h2 : members.lookup field.name = none) :
    field.find? (Json.toEntries members) = none := by
  unfold Field.find?
  rw [lookup_toEntries, lookup_toEntries, h1, h2]
  rfl

theorem optional_of_lookup {α : Type} {field : Field} {members : List (String × Json)}
    {value : Json} {absent a : α} {read : Document → Checked α}
    (h : members.lookup field.key = some value) (hr : read value.toDocument = .ok a) :
    optional (Json.toEntries members) field absent read = .ok a := by
  unfold optional
  rw [find?_of_lookup h]
  simp only [hr]
  rfl

theorem required_of_lookup {α : Type} {field : Field} {members : List (String × Json)}
    {value : Json} {a : α} {read : Document → Checked α}
    (h : members.lookup field.key = some value) (hr : read value.toDocument = .ok a) :
    required (Json.toEntries members) field read = .ok a := by
  unfold required
  rw [find?_of_lookup h]
  simp only [hr]
  rfl

theorem nullable_text (t : Option String) :
    nullable text (Json.ofText? t).toDocument = .ok t := by
  cases t <;> rfl

theorem nullable_moment (m : Option Moment) :
    nullable moment (Json.ofText? (m.map Moment.text)).toDocument = .ok m := by
  cases m with
  | none => rfl
  | some m =>
      have h := Reading.momentOfText_text m
      simp only [Option.map_some, Json.ofText?, Json.toDocument, nullable, moment, textOf?, h]
      rfl

theorem keyFaults_toEntries (members : List (String × Json)) :
    keyFaults (Json.toEntries members) = [] := by
  induction members with
  | nil => rfl
  | cons m rest ih =>
      rw [Json.toEntries, keyFaults, List.filterMap_cons]
      exact ih

theorem extrasFrom_toEntries {taken : List String} {members : List (String × Json)}
    {kept : Extras} (hn : ((kept.map Prod.fst) ++ members.map Prod.fst).Nodup) :
    extrasFrom taken kept (Json.toEntries members)
      = kept ++ (members.filter fun m => !taken.contains m.1).map
          fun m => (m.1, m.2.toDocument) := by
  induction members generalizing kept with
  | nil => simp [Json.toEntries, extrasFrom]
  | cons m rest ih =>
      obtain ⟨k, v⟩ := m
      have hk : k ∉ kept.map Prod.fst := by
        intro hk
        exact (List.nodup_append.mp hn).2.2 k hk k (by simp) rfl
      have hn' : (kept.map Prod.fst ++ rest.map Prod.fst).Nodup :=
        hn.sublist (List.Sublist.append_left (List.sublist_cons_self _ _) _)
      rw [Json.toEntries, extrasFrom]
      simp only [textOf?]
      -- keys do not repeat, so an entry that is kept comes last
      by_cases ht : taken.contains k
      · rw [if_pos ht, ih hn', List.filter_cons_of_neg (by simpa using ht)]
      · rw [if_neg ht, putMember_of_notMem hk, ih, List.filter_cons_of_pos (by simpa using ht)]
        · simp
        · simpa using hn

theorem extras_toEntries {fields : List Field} {members : List (String × Json)}
    (hn : (members.map Prod.fst).Nodup) :
    extras fields (Json.toEntries members)
      = .ok ((members.filter fun m =>
          !(taken fields (Json.toEntries members)).contains m.1).map
            fun m => (m.1, m.2.toDocument)) := by
  unfold extras
  rw [keyFaults_toEntries, extrasFrom_toEntries (by simpa using hn)]
  rfl

theorem all_itemsFrom {α : Type} {read : Document → Checked α} {items : List Json} {values : List α}
    (h : List.Forall₂ (fun item value => read item.toDocument = .ok value) items values)
    (index : Nat) :
    Checked.all (itemsFrom read index (Json.toDocuments items)) = .ok values := by
  induction h generalizing index with
  | nil => rfl
  | cons h1 _ ih =>
      rw [Json.toDocuments, itemsFrom, Checked.all, h1, ih]
      rfl

/-! ## Fields that were not found -/

theorem optional_of_find?_eq_none {α : Type} {field : Field} {entries : Entries} {absent : α}
    {read : Document → Checked α} (h : field.find? entries = none) :
    optional entries field absent read = .ok absent := by
  unfold optional
  rw [h]

end Schema

/-! ## Undeclared entries -/

namespace Extras

/-- The entries as they are read back once they were written. -/
def restored (extras : Extras) : Extras := extras.map fun e => (e.1, e.2.payload.toDocument)

/-- The entries are under different keys, none of which is declared. -/
def Undeclared (fields : List Schema.Field) (extras : Extras) : Prop :=
  (extras.map Prod.fst).Nodup ∧ ∀ key ∈ extras.map Prod.fst, key ∉ fields.map Schema.Field.key

instance (fields : List Schema.Field) (extras : Extras) : Decidable (extras.Undeclared fields) :=
  inferInstanceAs (Decidable (_ ∧ _))

theorem keys_payload (extras : Extras) : extras.payload.map Prod.fst = extras.map Prod.fst := by
  unfold Extras.payload
  rw [List.map_map]
  rfl

theorem keys_restored (extras : Extras) : extras.restored.map Prod.fst = extras.map Prod.fst := by
  unfold restored
  rw [List.map_map]
  rfl

theorem payload_restored (extras : Extras) : extras.restored.payload = extras.payload := by
  unfold restored Extras.payload
  rw [List.map_map]
  refine List.map_congr_left fun e _ => ?_
  exact Prod.ext rfl (Document.steady_payload e.2)

theorem restored_restored (extras : Extras) : extras.restored.restored = extras.restored := by
  unfold restored
  rw [List.map_map]
  refine List.map_congr_left fun e _ => ?_
  exact Prod.ext rfl (congrArg Json.toDocument (Document.steady_payload e.2))

theorem map_toDocument_payload (extras : Extras) :
    (extras.payload.map fun m => (m.1, m.2.toDocument)) = extras.restored := by
  unfold restored Extras.payload
  rw [List.map_map]
  rfl

theorem undeclared_restored {fields : List Schema.Field} {extras : Extras}
    (h : extras.Undeclared fields) : extras.restored.Undeclared fields := by
  unfold Undeclared
  rw [keys_restored]
  exact h

theorem undeclared_filter {fields : List Schema.Field} {extras : Extras}
    (h : extras.Undeclared fields) (keep : String × Document → Bool) :
    Extras.Undeclared fields (extras.filter keep) := by
  have hs : ((extras.filter keep).map Prod.fst).Sublist (extras.map Prod.fst) :=
    List.filter_sublist.map _
  exact ⟨h.1.sublist hs, fun key hk => h.2 key (hs.subset hk)⟩

theorem writeFault?_eq_none {extras : Extras} :
    extras.writeFault? = none ↔ ∀ e ∈ extras, e.2.writeFault? = none := by
  unfold writeFault?
  rw [List.findSome?_eq_none_iff]

theorem writeFault?_restored {extras : Extras} (h : extras.writeFault? = none) :
    extras.restored.writeFault? = none := by
  rw [writeFault?_eq_none] at h ⊢
  intro e he
  obtain ⟨e', he', rfl⟩ := List.mem_map.mp he
  exact Document.writable_payload e'.2 _ (h e' he')

theorem lookup_payload_of_notMem {extras : Extras} {key : String}
    (h : key ∉ extras.map Prod.fst) : extras.payload.lookup key = none := by
  rw [List.lookup_eq_none_iff]
  intro m hm
  have hm' : m.1 ∈ extras.map Prod.fst := by
    rw [← keys_payload]
    exact List.mem_map_of_mem hm
  simp only [bne_iff_ne, ne_eq]
  exact fun he => h (he ▸ hm')

end Extras

/-- In a written object no key is there twice. -/
theorem Extras.nodup_written {fields : List Schema.Field} {declared : List (String × Json)}
    {extras : Extras} (hn : (fields.map Schema.Field.key).Nodup) (hu : extras.Undeclared fields)
    (hs : (declared.map Prod.fst).Sublist (fields.map Schema.Field.key)) :
    ((declared ++ extras.payload).map Prod.fst).Nodup := by
  rw [List.map_append, Extras.keys_payload, List.nodup_append]
  refine ⟨hn.sublist hs, hu.1, ?_⟩
  intro a ha b hb he
  exact hu.2 b hb (he ▸ hs.subset ha)

/-- The undeclared entries of a written object are those that were written. -/
theorem Schema.extras_written {fields : List Field} {declared : List (String × Json)}
    {extras : Extras} (hn : (fields.map Field.key).Nodup) (hu : extras.Undeclared fields)
    (hs : (declared.map Prod.fst).Sublist (fields.map Field.key))
    (ht : taken fields (Json.toEntries (declared ++ extras.payload)) = declared.map Prod.fst) :
    Schema.extras fields (Json.toEntries (declared ++ extras.payload)) = .ok extras.restored := by
  have hkeys := Extras.nodup_written hn hu hs
  -- of the written object the fields take the declared members, and leave all others
  have hdrop : declared.filter (fun m => !(declared.map Prod.fst).contains m.1) = [] := by
    rw [List.filter_eq_nil_iff]
    intro m hm
    have : m.1 ∈ declared.map Prod.fst := List.mem_map_of_mem hm
    simpa using this
  have hkeep : extras.payload.filter (fun m => !(declared.map Prod.fst).contains m.1)
      = extras.payload := by
    rw [List.filter_eq_self]
    intro m hm
    have hm' : m.1 ∈ extras.map Prod.fst := by
      rw [← Extras.keys_payload]
      exact List.mem_map_of_mem hm
    simpa using fun hc => hu.2 m.1 hm' (hs.subset hc)
  rw [extras_toEntries hkeys, ht, List.filter_append, hdrop, hkeep, List.nil_append,
    Extras.map_toDocument_payload]

/-! ## Releases -/

namespace Release

/-- What a release keeps that was read from a document with texts for keys. -/
structure WellFormed (r : Release) : Prop where
  /-- There are no blanks around the version. -/
  trimmed : Text.trimmed r.version = r.version
  /-- The preference was stated by a flag. -/
  flagged : r.preferredAs = none
  /-- The other entries are under keys of their own. -/
  undeclared : r.extras.Undeclared fields

instance (r : Release) : Decidable r.WellFormed :=
  decidable_of_iff (Text.trimmed r.version = r.version ∧ r.preferredAs.isNone ∧
      r.extras.Undeclared fields)
    ⟨fun h => ⟨h.1, Option.isNone_iff_eq_none.mp h.2.1, h.2.2⟩,
      fun h => ⟨h.trimmed, Option.isNone_iff_eq_none.mpr h.flagged, h.undeclared⟩⟩

/-- The release as it is read back once it was written. -/
def restored (r : Release) : Release := { r with extras := r.extras.restored }

theorem restored_restored (r : Release) : r.restored.restored = r.restored := by
  unfold restored
  rw [Extras.restored_restored]

theorem WellFormed.restored {r : Release} (h : r.WellFormed) : r.restored.WellFormed :=
  ⟨h.trimmed, h.flagged, Extras.undeclared_restored h.undeclared⟩

theorem toJson_restored (r : Release) : r.restored.toJson = r.toJson := by
  unfold toJson
  rw [show r.restored.extras.payload = r.extras.payload from Extras.payload_restored _]
  rfl

/-- The declared members under the keys that they are written under. -/
def declared (r : Release) : List (String × Json) :=
  r.members.map fun member => (member.1.key, member.2)

theorem lookup_declared {r : Release} {m : Schema.Field × Json} (i : Nat)
    (h : r.members[i]? = some m) :
    (r.declared ++ r.extras.payload).lookup m.1.key = some m.2 := by
  -- the declared members come first, each under a key of its own
  rw [List.lookup_append]
  rcases i with _ | _ | _ | _ | _ | _ | _ | _ | _ | i
  all_goals cases h
  all_goals rfl

theorem taken_declared (r : Release) :
    Schema.taken fields (Json.toEntries (r.declared ++ r.extras.payload))
      = r.declared.map Prod.fst := by
  have h : ∀ m ∈ r.members, m.1.find? (Json.toEntries (r.declared ++ r.extras.payload))
      = some (m.1.key, m.2.toDocument) := by
    intro m hm
    obtain ⟨i, hi⟩ := List.mem_iff_getElem?.mp hm
    exact Schema.find?_of_lookup (lookup_declared i hi)
  have hd : r.declared.map Prod.fst = r.members.filterMap fun m => some m.1.key := by
    rw [declared, List.map_map, ← List.filterMap_eq_map]
    rfl
  unfold Schema.taken
  rw [show fields = r.members.map Prod.fst from rfl, List.filterMap_map, hd]
  refine List.filterMap_congr fun m hm => ?_
  simp [h m hm]

theorem statedPreference_payload {r : Release} (h : r.preferredAs = none) :
    r.statedPreference.payload = .bool r.preferred := by
  unfold statedPreference
  rw [h]
  rfl

/-- **A release is read as it was written.** -/
theorem ofDocument_toJson {r : Release} (h : r.WellFormed) :
    ofDocument r.toJson.toDocument = .ok r.restored := by
  have htext : ∀ (i : Nat) {field : Schema.Field} {t : Option String},
      r.members[i]? = some (field, .ofText? t) →
      Schema.optional (Json.toEntries (r.declared ++ r.extras.payload)) field none
        (Schema.nullable Schema.text) = .ok t :=
    fun i _ t hi => Schema.optional_of_lookup (lookup_declared i hi) (Schema.nullable_text t)
  have hversion : Schema.required (Json.toEntries (r.declared ++ r.extras.payload))
      ⟨"version", "version"⟩ Schema.text = .ok r.version :=
    Schema.required_of_lookup (lookup_declared 0 rfl) rfl
  have hflag : Schema.optional (Json.toEntries (r.declared ++ r.extras.payload))
      ⟨"preferred", "preferred"⟩ false Schema.flag = .ok r.preferred :=
    Schema.optional_of_lookup (lookup_declared 6 rfl)
      (by rw [statedPreference_payload h.flagged]; rfl)
  have hmodified : Schema.optional (Json.toEntries (r.declared ++ r.extras.payload))
      ⟨"lastModified", "last_modified"⟩ none (Schema.nullable Schema.moment)
        = .ok r.lastModified :=
    Schema.optional_of_lookup (lookup_declared 7 rfl) (Schema.nullable_moment _)
  have hextras := Schema.extras_written (by decide : (fields.map Schema.Field.key).Nodup)
    h.undeclared (List.Sublist.refl _) (taken_declared r)
  rw [show r.toJson.toDocument = .map (Json.toEntries (r.declared ++ r.extras.payload)) from rfl,
    ofDocument]
  -- every field is read as it was written, and the version has no blanks to drop
  simp only [hversion, htext 1 rfl, htext 2 rfl, htext 3 rfl, htext 4 rfl, htext 5 rfl, hflag,
    hmodified, htext 8 rfl, hextras]
  refine congrArg Schema.Checked.ok ?_
  show Release.mk (Text.trimmed r.version) _ _ _ _ _ _ none _ _ _ = _
  rw [h.trimmed, ← h.flagged]
  rfl

theorem writeFault?_restored {r : Release} (h : r.writeFault? = none) :
    r.restored.writeFault? = none := by
  unfold writeFault? at h ⊢
  obtain ⟨h1, h2⟩ := (Option.orElse_eq_none _ _).mp h
  exact (Option.orElse_eq_none _ _).mpr ⟨h1, Extras.writeFault?_restored h2⟩

end Release

/-! ## Plugins -/

namespace Plugin

/-- What the record of a plugin keeps that was read from a document with texts for keys. -/
structure WellFormed (p : Plugin) : Prop where
  /-- The id is not empty. -/
  named : p.id ≠ ""
  /-- The id has octets. -/
  encoded : Text.half? p.id = none
  /-- Every release is as it was read. -/
  releases : ∀ r ∈ p.releases, r.WellFormed
  /-- The other entries are under keys of their own. -/
  undeclared : p.extras.Undeclared fields

instance (p : Plugin) : Decidable p.WellFormed :=
  decidable_of_iff (p.id ≠ "" ∧ Text.half? p.id = none ∧ (∀ r ∈ p.releases, r.WellFormed) ∧
      p.extras.Undeclared fields)
    ⟨fun h => ⟨h.1, h.2.1, h.2.2.1, h.2.2.2⟩,
      fun h => ⟨h.named, h.encoded, h.releases, h.undeclared⟩⟩

/-- The plugin as it is read back once its body was written. -/
def restored (p : Plugin) : Plugin :=
  { p with
    releases := p.releases.map Release.restored
    extras := p.bodyExtras.restored
    createTs := none
    lastModified := none }

theorem versions_restored (p : Plugin) : p.restored.versions = p.versions := by
  unfold versions restored
  rw [List.map_map]
  rfl

theorem bodyExtras_restored (p : Plugin) : p.restored.bodyExtras = p.bodyExtras.restored := by
  have h : ∀ e ∈ p.bodyExtras.restored, (!isTimeKey e.1) = true := by
    intro e he
    obtain ⟨e', he', rfl⟩ := List.mem_map.mp he
    exact (List.mem_filter.mp he').2
  exact List.filter_eq_self.mpr h

theorem restored_restored (p : Plugin) : p.restored.restored = p.restored := by
  have h1 : (p.releases.map Release.restored).map Release.restored
      = p.releases.map Release.restored := by
    rw [List.map_map]
    exact List.map_congr_left fun r _ => r.restored_restored
  have h2 : p.restored.bodyExtras.restored = p.bodyExtras.restored := by
    rw [bodyExtras_restored, Extras.restored_restored]
  show { p with
      releases := (p.releases.map Release.restored).map Release.restored
      extras := p.restored.bodyExtras.restored, createTs := none, lastModified := none } = _
  rw [h1, h2]
  rfl

theorem WellFormed.restored {p : Plugin} (h : p.WellFormed) : p.restored.WellFormed where
  named := h.named
  encoded := h.encoded
  releases := by
    intro r hr
    obtain ⟨r', hr', rfl⟩ := List.mem_map.mp hr
    exact (h.releases r' hr').restored
  undeclared := Extras.undeclared_restored (Extras.undeclared_filter h.undeclared _)

theorem body_restored (p : Plugin) : p.restored.body = p.body := by
  have h : (p.releases.map Release.restored).map Release.toJson
      = p.releases.map Release.toJson := by
    rw [List.map_map]
    exact List.map_congr_left fun r _ => r.toJson_restored
  unfold body
  rw [bodyExtras_restored, Extras.payload_restored]
  unfold bodyMembers
  rw [show p.restored.releases = p.releases.map Release.restored from rfl, h]
  rfl

theorem lookup_bodyMembers {p : Plugin} {m : String × Json} (i : Nat)
    (h : p.bodyMembers[i]? = some m) :
    (p.bodyMembers ++ p.bodyExtras.payload).lookup m.1 = some m.2 := by
  rw [List.lookup_append]
  rcases i with _ | _ | _ | _ | _ | i
  all_goals cases h
  all_goals rfl

/-- Neither time is in the body, under any name. -/
theorem find?_time {p : Plugin} (h : p.WellFormed) {field : Schema.Field} (hf : field ∈ fields)
    (hk : p.bodyMembers.lookup field.key = none) (hn : p.bodyMembers.lookup field.name = none)
    (ht : isTimeKey field.name = true) :
    field.find? (Json.toEntries (p.bodyMembers ++ p.bodyExtras.payload)) = none := by
  have hkeep := Extras.undeclared_filter h.undeclared fun extra => !isTimeKey extra.1
  have h1 : field.key ∉ p.bodyExtras.map Prod.fst :=
    fun hm => hkeep.2 _ hm (List.mem_map_of_mem hf)
  have h2 : field.name ∉ p.bodyExtras.map Prod.fst := by
    intro hm
    obtain ⟨e, he, hname⟩ := List.mem_map.mp hm
    have := (List.mem_filter.mp he).2
    rw [hname, ht] at this
    cases this
  refine Schema.find?_eq_none_of_lookup ?_ ?_
  · rw [List.lookup_append, hk, Extras.lookup_payload_of_notMem h1]
    rfl
  · rw [List.lookup_append, hn, Extras.lookup_payload_of_notMem h2]
    rfl

/-- What the fields are found as in a body. -/
theorem find?_body {p : Plugin} (i : Nat) {field : Schema.Field} {value : Json}
    (h : p.bodyMembers[i]? = some (field.key, value)) :
    field.find? (Json.toEntries (p.bodyMembers ++ p.bodyExtras.payload))
      = some (field.key, value.toDocument) :=
  Schema.find?_of_lookup (lookup_bodyMembers i h)

theorem taken_body {p : Plugin} (h : p.WellFormed) :
    Schema.taken fields (Json.toEntries (p.bodyMembers ++ p.bodyExtras.payload))
      = p.bodyMembers.map Prod.fst := by
  have hid := find?_body (p := p) 0 (rfl : _ = some ((⟨"id", "id"⟩ : Schema.Field).key, _))
  have hservice :=
    find?_body (p := p) 1 (rfl : _ = some ((⟨"service", "service"⟩ : Schema.Field).key, _))
  have hdescription := find?_body (p := p) 2
    (rfl : _ = some ((⟨"description", "description"⟩ : Schema.Field).key, _))
  have hprovider :=
    find?_body (p := p) 3 (rfl : _ = some ((⟨"provider", "provider"⟩ : Schema.Field).key, _))
  have hreleases :=
    find?_body (p := p) 4 (rfl : _ = some ((⟨"releases", "releases"⟩ : Schema.Field).key, _))
  have hcreated := find?_time h (by decide : ⟨"createTs", "create_ts"⟩ ∈ fields) rfl rfl rfl
  have hmodified :=
    find?_time h (by decide : ⟨"lastModified", "last_modified"⟩ ∈ fields) rfl rfl rfl
  unfold Schema.taken fields
  simp only [List.filterMap_cons, List.filterMap_nil, hid, hservice, hdescription, hprovider,
    hreleases, hcreated, hmodified]
  rfl

theorem ofDocument_releases {releases : List Release} (h : ∀ r ∈ releases, r.WellFormed) :
    Schema.list Release.ofDocument (Json.arr (releases.map Release.toJson)).toDocument
      = .ok (releases.map Release.restored) := by
  refine Schema.all_itemsFrom ?_ 0
  induction releases with
  | nil => exact .nil
  | cons r rest ih =>
      obtain ⟨h1, h2⟩ := List.forall_mem_cons.mp h
      exact .cons (Release.ofDocument_toJson h1) (ih h2)

theorem sublist_keys_bodyMembers (p : Plugin) :
    (p.bodyMembers.map Prod.fst).Sublist (fields.map Schema.Field.key) :=
  (by decide : ["id", "service", "description", "provider", "releases"].Sublist
    (fields.map Schema.Field.key))

/-- **The body of a record is read as the record.** -/
theorem read_body {p : Plugin} (h : p.WellFormed) :
    read p.body.toDocument = .ok p.restored := by
  have htext : ∀ (i : Nat) {name : String} {t : Option String},
      p.bodyMembers[i]? = some (name, .ofText? t) →
      Schema.optional (Json.toEntries (p.bodyMembers ++ p.bodyExtras.payload)) ⟨name, name⟩ none
        (Schema.nullable Schema.text) = .ok t :=
    fun i _ t hi => Schema.optional_of_lookup (lookup_bodyMembers i hi) (Schema.nullable_text t)
  have hid : Schema.required (Json.toEntries (p.bodyMembers ++ p.bodyExtras.payload))
      ⟨"id", "id"⟩ Schema.nonemptyText = .ok p.id := by
    refine Schema.required_of_lookup (lookup_bodyMembers (m := ("id", .str p.id)) 0 rfl) ?_
    simp [Schema.nonemptyText, Schema.text, Schema.textOf?, Json.toDocument,
      Schema.Checked.andThen, h.named, h.encoded]
  have hreleases : Schema.optional (Json.toEntries (p.bodyMembers ++ p.bodyExtras.payload))
      ⟨"releases", "releases"⟩ [] (Schema.list Release.ofDocument)
        = .ok (p.releases.map Release.restored) :=
    Schema.optional_of_lookup (lookup_bodyMembers 4 rfl) (ofDocument_releases h.releases)
  have htime : ∀ field ∈ fields, p.bodyMembers.lookup field.key = none →
      p.bodyMembers.lookup field.name = none → isTimeKey field.name = true →
      Schema.optional (Json.toEntries (p.bodyMembers ++ p.bodyExtras.payload)) field none
        (Schema.nullable Schema.moment) = .ok none :=
    fun field hf hk hn ht => Schema.optional_of_find?_eq_none (find?_time h hf hk hn ht)
  have hcreated := htime ⟨"createTs", "create_ts"⟩ (by decide) rfl rfl rfl
  have hmodified := htime ⟨"lastModified", "last_modified"⟩ (by decide) rfl rfl rfl
  have hextras := Schema.extras_written (by decide : (fields.map Schema.Field.key).Nodup)
    (Extras.undeclared_filter h.undeclared fun extra => !isTimeKey extra.1)
    p.sublist_keys_bodyMembers (taken_body h)
  rw [← bodyExtras] at hextras
  have hread : ofDocument p.body.toDocument = .ok p.restored := by
    rw [show p.body.toDocument
      = .map (Json.toEntries (p.bodyMembers ++ p.bodyExtras.payload)) from rfl, ofDocument]
    simp only [hid, htext 1 rfl, htext 2 rfl, htext 3 rfl, hreleases, hcreated, hmodified, hextras]
    rfl
  unfold read
  rw [hread]
  rfl

theorem releaseFault?_eq_none {p : Plugin} :
    p.releaseFault? = none ↔ ∀ r ∈ p.releases, r.writeFault? = none := by
  unfold releaseFault?
  rw [List.findSome?_eq_none_iff]

theorem writeBody_eq_ok {p : Plugin} {body : Json} :
    p.writeBody = .ok body ↔
      (∀ r ∈ p.releases, r.writeFault? = none) ∧ p.bodyExtras.writeFault? = none ∧
        p.body = body := by
  unfold writeBody
  rw [← releaseFault?_eq_none]
  constructor
  · intro h
    split at h
    · cases h
    · rename_i hn
      obtain ⟨h1, h2⟩ := (Option.orElse_eq_none _ _).mp hn
      exact ⟨h1, h2, Except.ok.inj h⟩
  · rintro ⟨h1, h2, rfl⟩
    rw [h1, h2]
    rfl

theorem writeBody_restored {p : Plugin} {body : Json} (h : p.writeBody = .ok body) :
    p.restored.writeBody = .ok body := by
  obtain ⟨h1, h2, rfl⟩ := writeBody_eq_ok.mp h
  refine writeBody_eq_ok.mpr ⟨?_, ?_, body_restored p⟩
  · intro r hr
    obtain ⟨r', hr', rfl⟩ := List.mem_map.mp hr
    exact Release.writeFault?_restored (h1 r' hr')
  · rw [bodyExtras_restored]
    exact Extras.writeFault?_restored h2

end Plugin

end PluginRegistry
