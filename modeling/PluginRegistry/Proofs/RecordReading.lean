import PluginRegistry.Proofs.RecordCodec
import PluginRegistry.Proofs.TextPieces

/-!
# Records that were read are well formed

A document that was JSON has texts for keys. So a field is taken whenever there is an entry under
its key, and what is left over is under other keys, each of them once. Versions are trimmed as they
are read, and trimming twice is trimming once. With that every record that is read from JSON is
`WellFormed`, which is what is asked of the records that the registry is given.
-/

namespace PluginRegistry

namespace Schema

theorem Checked.map_eq_ok {α β : Type} {f : α → β} {x : Checked α} {b : β}
    (h : x.map f = .ok b) : ∃ a, x = .ok a ∧ f a = b := by
  cases x with
  | ok a => exact ⟨a, rfl, Checked.ok.inj h⟩
  | wrong faults => cases h

theorem Checked.apply_eq_ok {α β : Type} {f : Checked (α → β)} {x : Checked α} {b : β}
    (h : f <*> x = .ok b) : ∃ g a, f = .ok g ∧ x = .ok a ∧ g a = b := by
  cases f with
  | ok g =>
      cases x with
      | ok a => exact ⟨g, a, rfl, rfl, Checked.ok.inj h⟩
      | wrong faults => cases h
  | wrong faults => cases h

theorem Checked.within_eq_ok {α : Type} {step : Step} {x : Checked α} {a : α} :
    x.within step = .ok a ↔ x = .ok a := by
  cases x with
  | ok b => rfl
  | wrong faults => exact iff_of_false nofun nofun

/-! ## Values that are found -/

theorem mem_of_lookup {members : List (String × Json)} {key : String} {value : Json}
    (h : members.lookup key = some value) : (key, value) ∈ members := by
  obtain ⟨before, after, rfl, _⟩ := List.lookup_eq_some_iff.mp h
  exact List.mem_append_right _ List.mem_cons_self

/-- What is found in a document that was JSON is one of its values. -/
theorem find?_toEntries {field : Field} {members : List (String × Json)} {key : String}
    {value : Document} (h : field.find? (Json.toEntries members) = some (key, value)) :
    ∃ json, (key, json) ∈ members ∧ value = json.toDocument := by
  unfold Field.find? at h
  rw [lookup_toEntries, lookup_toEntries] at h
  split at h
  · rename_i found hfound
    obtain ⟨json, hjson, rfl⟩ := Option.map_eq_some_iff.mp hfound
    cases h
    exact ⟨json, mem_of_lookup hjson, rfl⟩
  · obtain ⟨found, hfound, heq⟩ := Option.map_eq_some_iff.mp h
    obtain ⟨json, hjson, rfl⟩ := Option.map_eq_some_iff.mp hfound
    cases heq
    exact ⟨json, mem_of_lookup hjson, rfl⟩

theorem optional_eq_ok {α : Type} {field : Field} {members : List (String × Json)} {absent a : α}
    {read : Document → Checked α}
    (h : optional (Json.toEntries members) field absent read = .ok a) :
    a = absent ∨ ∃ m ∈ members, read m.2.toDocument = .ok a := by
  unfold optional at h
  split at h
  · rename_i hfound
    obtain ⟨json, hjson, rfl⟩ := find?_toEntries hfound
    exact .inr ⟨_, hjson, Checked.within_eq_ok.mp h⟩
  · cases h
    exact .inl rfl

theorem required_eq_ok {α : Type} {field : Field} {entries : Entries} {a : α}
    {read : Document → Checked α} (h : required entries field read = .ok a) :
    ∃ value, read value = .ok a := by
  unfold required at h
  split at h
  · rename_i value _
    exact ⟨value, Checked.within_eq_ok.mp h⟩
  · cases h

theorem nonemptyText_eq_ok {value : Document} {s : String} (h : nonemptyText value = .ok s) :
    s ≠ "" ∧ Text.half? s = none := by
  unfold nonemptyText Checked.andThen at h
  split at h
  · dsimp only at h
    split at h
    · cases h
    · rename_i hhalf
      split at h
      · cases h
      · rename_i hempty
        cases h
        exact ⟨hempty, Option.not_isSome_iff_eq_none.mp hhalf⟩
  · cases h

/-- The values of a list that was read were read from its items. -/
theorem mem_itemsFrom {α : Type} {read : Document → Checked α} {items : List Json}
    {index : Nat} {values : List α}
    (h : Checked.all (itemsFrom read index (Json.toDocuments items)) = .ok values) :
    ∀ value ∈ values, ∃ item ∈ items, read item.toDocument = .ok value := by
  induction items generalizing index values with
  | nil =>
      cases h
      exact fun _ hvalue => by cases hvalue
  | cons item rest ih =>
      rw [Json.toDocuments, itemsFrom, Checked.all] at h
      obtain ⟨_, tail, hhead, htail, rfl⟩ := Checked.apply_eq_ok h
      obtain ⟨head, hitem, rfl⟩ := Checked.map_eq_ok hhead
      refine List.forall_mem_cons.mpr
        ⟨⟨item, List.mem_cons_self, Checked.within_eq_ok.mp hitem⟩, fun value hvalue => ?_⟩
      obtain ⟨later, hlater, hread⟩ := ih htail value hvalue
      exact ⟨later, List.mem_cons_of_mem _ hlater, hread⟩

theorem list_eq_ok {α : Type} {read : Document → Checked α} {json : Json} {values : List α}
    (h : list read json.toDocument = .ok values) :
    ∃ items, json = .arr items ∧
      ∀ value ∈ values, ∃ item ∈ items, read item.toDocument = .ok value := by
  cases json with
  | arr items => exact ⟨items, rfl, mem_itemsFrom h⟩
  | _ => cases h

/-! ## Entries that are left over -/

theorem nodup_extrasFrom {taken : List String} {kept : Extras} {entries : Entries}
    (h : (kept.map Prod.fst).Nodup) : ((extrasFrom taken kept entries).map Prod.fst).Nodup := by
  induction entries generalizing kept with
  | nil => exact h
  | cons entry rest ih =>
      obtain ⟨key, value⟩ := entry
      unfold extrasFrom
      split
      · split
        · exact ih h
        · exact ih (nodup_putMember h)
      · exact ih h

theorem mem_keys_extrasFrom {taken : List String} {kept : Extras} {entries : Entries}
    {name : String} (h : name ∈ (extrasFrom taken kept entries).map Prod.fst) :
    name ∈ kept.map Prod.fst ∨
      name ∉ taken ∧ ∃ entry ∈ entries, textOf? entry.1 = some (.ok name) := by
  induction entries generalizing kept with
  | nil => exact .inl h
  | cons entry rest ih =>
      obtain ⟨key, value⟩ := entry
      have hlater : (name ∉ taken ∧ ∃ entry ∈ rest, textOf? entry.1 = some (.ok name)) →
          name ∉ taken ∧ ∃ entry ∈ (key, value) :: rest, textOf? entry.1 = some (.ok name) :=
        fun ⟨hname, entry, hentry, htext⟩ =>
          ⟨hname, entry, List.mem_cons_of_mem _ hentry, htext⟩
      unfold extrasFrom at h
      split at h
      · rename_i found hfound
        split at h
        · exact (ih h).imp_right hlater
        · rename_i htaken
          rcases ih h with hkept | hrest
          · rcases mem_keys_putMember.mp hkept with rfl | hkept
            · exact .inr ⟨by simpa using htaken, (key, value), List.mem_cons_self, hfound⟩
            · exact .inl hkept
          · exact .inr (hlater hrest)
      · exact (ih h).imp_right hlater

theorem mem_extrasFrom {P : Document → Prop} {taken : List String} {kept : Extras}
    {entries : Entries} (hkept : ∀ e ∈ kept, P e.2) (hentries : ∀ e ∈ entries, P e.2) :
    ∀ e ∈ extrasFrom taken kept entries, P e.2 := by
  induction entries generalizing kept with
  | nil => exact hkept
  | cons entry rest ih =>
      obtain ⟨key, value⟩ := entry
      obtain ⟨hvalue, hrest⟩ := List.forall_mem_cons.mp hentries
      unfold extrasFrom
      split
      · split
        · exact ih hkept hrest
        · exact ih (forall_mem_putMember hvalue hkept) hrest
      · exact ih hkept hrest

/-- A key that is in the document is taken by the field that has it. -/
theorem mem_taken {fields : List Field} {members : List (String × Json)} {field : Field}
    (hfield : field ∈ fields) (hkey : field.key ∈ members.map Prod.fst) :
    field.key ∈ taken fields (Json.toEntries members) := by
  unfold taken
  refine List.mem_filterMap.mpr ⟨field, hfield, ?_⟩
  cases hvalue : members.lookup field.key with
  | none =>
      obtain ⟨m, hm, hname⟩ := List.mem_map.mp hkey
      have hne := List.lookup_eq_none_iff.mp hvalue m hm
      rw [bne_iff_ne, hname] at hne
      exact absurd rfl hne
  | some value =>
      rw [find?_of_lookup hvalue]
      rfl

theorem mem_toEntries {members : List (String × Json)} {entry : Scalar × Document}
    (h : entry ∈ Json.toEntries members) : ∃ m ∈ members, entry = (.text m.1, m.2.toDocument) := by
  induction members with
  | nil => cases h
  | cons m rest ih =>
      rw [Json.toEntries] at h
      rcases List.mem_cons.mp h with rfl | h
      · exact ⟨m, List.mem_cons_self, rfl⟩
      · obtain ⟨m', hm', he⟩ := ih h
        exact ⟨m', List.mem_cons_of_mem _ hm', he⟩

/-- **What is left over is undeclared.** -/
theorem undeclared_of_extras {fields : List Field} {members : List (String × Json)}
    {left : Extras} (h : extras fields (Json.toEntries members) = .ok left) :
    left.Undeclared fields := by
  unfold extras at h
  rw [keyFaults_toEntries] at h
  cases h
  refine ⟨nodup_extrasFrom List.nodup_nil, fun name hname hdeclared => ?_⟩
  obtain ⟨field, hfield, rfl⟩ := List.mem_map.mp hdeclared
  rcases mem_keys_extrasFrom hname with hnone | ⟨htaken, entry, hentry, htext⟩
  · cases hnone
  · obtain ⟨m, hm, rfl⟩ := mem_toEntries hentry
    have hkey : m.1 = field.key := Except.ok.inj (Option.some.inj htext)
    exact htaken (mem_taken hfield (List.mem_map.mpr ⟨m, hm, hkey⟩))

/-- What is left over are values of the document. -/
theorem mem_of_extras {fields : List Field} {members : List (String × Json)} {left : Extras}
    (h : extras fields (Json.toEntries members) = .ok left) :
    ∀ e ∈ left, ∃ m ∈ members, e.2 = m.2.toDocument := by
  unfold extras at h
  rw [keyFaults_toEntries] at h
  cases h
  refine mem_extrasFrom (P := fun value => ∃ m ∈ members, value = m.2.toDocument) nofun
    fun e he => ?_
  obtain ⟨m, hm, rfl⟩ := mem_toEntries he
  exact ⟨m, hm, rfl⟩

end Schema

/-! ## Records -/

/-- What a release that was read has from the members of its object. -/
theorem Release.ofDocument_eq_ok {json : Json} {r : Release}
    (h : ofDocument json.toDocument = .ok r) :
    ∃ members, json = .obj members ∧ (∃ text, r.version = Text.trimmed text) ∧
      r.preferredAs = none ∧ Schema.extras fields (Json.toEntries members) = .ok r.extras := by
  cases json with
  | obj members =>
      rw [Json.toDocument, ofDocument] at h
      obtain ⟨_, left, h₁, hleft, rfl⟩ := Schema.Checked.apply_eq_ok h
      obtain ⟨_, modifiedBy, h₂, -, rfl⟩ := Schema.Checked.apply_eq_ok h₁
      obtain ⟨_, modified, h₃, -, rfl⟩ := Schema.Checked.apply_eq_ok h₂
      obtain ⟨_, stated, h₄, hstated, rfl⟩ := Schema.Checked.apply_eq_ok h₃
      obtain ⟨_, preferred, h₅, -, rfl⟩ := Schema.Checked.apply_eq_ok h₄
      obtain ⟨_, notes, h₆, -, rfl⟩ := Schema.Checked.apply_eq_ok h₅
      obtain ⟨_, sum, h₇, -, rfl⟩ := Schema.Checked.apply_eq_ok h₆
      obtain ⟨_, url, h₈, -, rfl⟩ := Schema.Checked.apply_eq_ok h₇
      obtain ⟨_, requires, h₉, -, rfl⟩ := Schema.Checked.apply_eq_ok h₈
      obtain ⟨_, date, h₁₀, -, rfl⟩ := Schema.Checked.apply_eq_ok h₉
      obtain ⟨version, hversion, rfl⟩ := Schema.Checked.map_eq_ok h₁₀
      obtain ⟨text, -, rfl⟩ := Schema.Checked.map_eq_ok hversion
      cases hstated
      exact ⟨members, rfl, ⟨text, rfl⟩, rfl, hleft⟩
  | _ => cases h

theorem Release.wellFormed_of_ofDocument {json : Json} {r : Release}
    (h : ofDocument json.toDocument = .ok r) : r.WellFormed := by
  obtain ⟨_, _, ⟨text, hversion⟩, hflagged, hextras⟩ := ofDocument_eq_ok h
  refine ⟨?_, hflagged, Schema.undeclared_of_extras hextras⟩
  rw [hversion, Text.trimmed_trimmed]

/-- **A release that was read from JSON is well formed.** -/
theorem Release.wellFormed_of_read {json : Json} {r : Release}
    (h : read json.toDocument = .ok r) : r.WellFormed := by
  unfold read Schema.Checked.forRecord at h
  split at h
  · rename_i hread
    cases h
    exact wellFormed_of_ofDocument hread
  · cases h

/-- The parts of a plugin are read from the entries one by one. -/
theorem Plugin.parts_of_ofDocument {entries : Schema.Entries} {p : Plugin}
    (h : ofDocument (.map entries) = .ok p) :
    Schema.required entries ⟨"id", "id"⟩ Schema.nonemptyText = .ok p.id ∧
      Schema.optional entries ⟨"releases", "releases"⟩ [] (Schema.list Release.ofDocument)
        = .ok p.releases ∧
      Schema.extras fields entries = .ok p.extras := by
  rw [ofDocument] at h
  obtain ⟨_, _, h₁, hleft, rfl⟩ := Schema.Checked.apply_eq_ok h
  obtain ⟨_, _, h₂, -, rfl⟩ := Schema.Checked.apply_eq_ok h₁
  obtain ⟨_, _, h₃, -, rfl⟩ := Schema.Checked.apply_eq_ok h₂
  obtain ⟨_, _, h₄, hreleases, rfl⟩ := Schema.Checked.apply_eq_ok h₃
  obtain ⟨_, _, h₅, -, rfl⟩ := Schema.Checked.apply_eq_ok h₄
  obtain ⟨_, _, h₆, -, rfl⟩ := Schema.Checked.apply_eq_ok h₅
  obtain ⟨_, _, h₇, -, rfl⟩ := Schema.Checked.apply_eq_ok h₆
  obtain ⟨_, hid, rfl⟩ := Schema.Checked.map_eq_ok h₇
  exact ⟨hid, hreleases, hleft⟩

/-- What a plugin that was read has from the members of its object. -/
theorem Plugin.ofDocument_eq_ok {json : Json} {p : Plugin}
    (h : ofDocument json.toDocument = .ok p) :
    ∃ members, json = .obj members ∧ (∃ value, Schema.nonemptyText value = .ok p.id) ∧
      (∀ r ∈ p.releases, ∃ key items, (key, .arr items) ∈ members ∧
        ∃ item ∈ items, Release.ofDocument item.toDocument = .ok r) ∧
      Schema.extras fields (Json.toEntries members) = .ok p.extras := by
  cases json with
  | obj members =>
      rw [Json.toDocument] at h
      obtain ⟨hid, hreleases, hleft⟩ := parts_of_ofDocument h
      refine ⟨members, rfl, Schema.required_eq_ok hid, fun release hrelease => ?_, hleft⟩
      rcases Schema.optional_eq_ok hreleases with hnone | ⟨⟨key, json⟩, hmember, hlist⟩
      · rw [hnone] at hrelease
        cases hrelease
      · obtain ⟨items, rfl, hitems⟩ := Schema.list_eq_ok hlist
        exact ⟨key, items, hmember, hitems release hrelease⟩
  | _ => cases h

theorem Plugin.wellFormed_of_ofDocument {json : Json} {p : Plugin}
    (h : ofDocument json.toDocument = .ok p) : p.WellFormed := by
  obtain ⟨_, _, ⟨value, hvalue⟩, hreleases, hextras⟩ := ofDocument_eq_ok h
  obtain ⟨hnamed, hencoded⟩ := Schema.nonemptyText_eq_ok hvalue
  refine ⟨hnamed, hencoded, fun release hrelease => ?_, Schema.undeclared_of_extras hextras⟩
  obtain ⟨_, _, _, item, _, hitem⟩ := hreleases release hrelease
  exact Release.wellFormed_of_ofDocument hitem

theorem Plugin.read_eq_ok {document : Document} {p : Plugin} (h : read document = .ok p) :
    ofDocument document = .ok p := by
  unfold read Schema.Checked.forRecord at h
  split at h
  · rename_i hread
    cases h
    exact hread
  · cases h

/-- **A plugin that was read from JSON is well formed.** -/
theorem Plugin.wellFormed_of_read {json : Json} {p : Plugin} (h : read json.toDocument = .ok p) :
    p.WellFormed :=
  wellFormed_of_ofDocument (read_eq_ok h)

end PluginRegistry
