import PluginRegistry.Proofs.AcceptedRecords
import PluginRegistry.Proofs.RecordRoundTrip

/-!
# What an upsert comes to

An upsert makes a record or adds releases to the one that is there, and there are few ways in which
it ends. A version that is there already is refused before any validator is asked. What the
validators object to is refused as well, and what cannot be kept is not written. In every other case
the releases of the candidate come after those that are stored, in order, and none of them is
preferred; the stored ones stay as they are. So it makes no difference which releases of a candidate
are marked as preferred.

Both ways of writing, making a record and writing over one, put the same releases behind those that
are kept, which are none at first. `Plugin.behind` is that record, and `Registry.Admits` says what
becomes of it.
-/

namespace PluginRegistry

/-! ## Records that can be made -/

namespace Catalog

open PluginRegistry.Action

variable {σ : Type}

/-- A row with an id of its own is added. -/
theorem add_of_new {w : World σ} {t : Table} (ht : w.table = some t) (timing : Timing) (row : Row)
    (hnew : t.find? row.id = none) (hid : textFault? row.id = none)
    (htag : tagFault? row.service = none) (hwritable : w.readOnly = false) :
    ∃ w', (add timing row).start w = (.ok (), w') := by
  have hdistinct := Table.find?_eq_none.mp hnew
  have hinsert : t.insert? row =
      some ⟨Table.place row t.rows, Table.pairwise_place t.ordered hdistinct⟩ := dif_pos hdistinct
  obtain ⟨w', _, hmeasure⟩ := measure_start timing ⟨.str "add", modelSubject, .null⟩
    { w with table := some ⟨Table.place row t.rows, Table.pairwise_place t.ordered hdistinct⟩ }
  have hfault : (textFault? row.id <|> tagFault? row.service) = none := by
    rw [hid, htag]
    rfl
  refine ⟨w', ?_⟩
  unfold add
  rw [start_bind, start_table ht]
  simp only [hfault, hinsert, start_bind, start_isReadOnly, hwritable]
  exact hmeasure

/-- A record that is new and can be written is made. -/
theorem insert_of_new {w : World σ} {t : Table} (ht : w.table = some t) (timing : Timing)
    (now : CivilTime) {plugin : Plugin} {body : Json} (hwf : plugin.WellFormed)
    (hnew : t.find? plugin.id = none) (hbody : plugin.writeBody = .ok body)
    (htag : tagFault? plugin.service = none) (hwritable : w.readOnly = false) :
    ∃ p w', (insert timing now plugin.id plugin).start w = (.ok p, w') := by
  have hid := hwf.textFault?_id
  obtain ⟨w₁, hk, hget⟩ := get_of_table ht timing hid
  have hheld : Row.Holds ⟨plugin.id, plugin.service, body, now, now⟩ plugin.restored :=
    Row.holds_made hwf hbody htag rfl rfl
  obtain ⟨w₂, hadd⟩ := add_of_new (hk.table.trans ht) timing
    ⟨plugin.id, plugin.service, body, now, now⟩ hnew hid htag (hk.readOnly.trans hwritable)
  have hown : (requireOwnId plugin.id plugin : Action σ Unit) = pure () := if_pos rfl
  refine ⟨plugin.restored.timed ⟨plugin.id, plugin.service, body, now, now⟩, w₂, ?_⟩
  unfold insert
  rw [hown, pure_bind, start_session_eq_ok, start_bind_eq_ok]
  refine ⟨none, w₁, hnew ▸ hget, ?_⟩
  rw [hbody]
  simp only [Action.ofExcept, pure_bind]
  exact start_bind_eq_ok.mpr ⟨(), w₂, hadd, start_ofExcept_eq_ok.mpr ⟨hheld.ofRow, rfl⟩⟩

end Catalog

namespace Plugin

/-! ## The record that an upsert writes -/

/-- The record can be copied, and there is nothing in it that cannot be kept. -/
structure Storable (p : Plugin) : Prop where
  /-- What is undeclared has not too many levels to be copied. -/
  copied : p.canCopy
  /-- What is undeclared in the releases can be written. -/
  releases : ∀ r ∈ p.releases, r.extras.writeFault? = none
  /-- So can what is undeclared beside them, as far as it goes into the body. -/
  extras : p.bodyExtras.writeFault? = none
  /-- The tag can be kept. -/
  tag : Catalog.tagFault? p.service = none

/-- The candidate with its releases behind others; of its own none is preferred. -/
def behind (kept : List Release) (c : Plugin) : Plugin :=
  { c with releases := kept ++ c.releases.map (·.withPreference false) }

/-- The releases of a candidate as they are stored. -/
def incoming (c : Plugin) : List Release :=
  (c.releases.map (·.withPreference false)).map Release.restored

/-- They are written as the releases of the candidate are, apart from the preference. -/
theorem toJson_incoming (c : Plugin) :
    c.incoming.map Release.toJson
      = (c.releases.map (·.withPreference false)).map Release.toJson := by
  unfold incoming
  rw [List.map_map]
  exact List.map_congr_left fun r _ => r.toJson_restored

/-- Of a record that was read from JSON they are the releases, apart from the preference. -/
theorem Settled.incoming {c : Plugin} (h : c.Settled) :
    c.incoming = c.releases.map (·.withPreference false) := by
  unfold Plugin.incoming
  conv_rhs => rw [← List.map_id (c.releases.map _)]
  refine List.map_congr_left fun r hr => ?_
  obtain ⟨r', hr', rfl⟩ := List.mem_map.mp hr
  exact Release.restored_of_settled (r := r'.withPreference false) (h.releases r' hr')

theorem WellFormed.behind {c : Plugin} (h : c.WellFormed) {kept : List Release}
    (hkept : ∀ r ∈ kept, r.WellFormed) : (c.behind kept).WellFormed := by
  refine h.withReleases fun r hr => ?_
  rcases List.mem_append.mp hr with hr | hr
  · exact hkept r hr
  · exact h.withoutPreference.releases r hr

theorem versions_behind (kept : List Release) (c : Plugin) :
    (c.behind kept).versions = kept.map Release.version ++ c.versions := by
  rw [← versions_withoutPreference c]
  exact List.map_append

theorem canCopy_withoutPreference (c : Plugin) : c.withoutPreference.canCopy = c.canCopy := by
  unfold canCopy withoutPreference
  rw [List.all_map]
  rfl

/-- Behind releases that can be written, a candidate can be exactly if there is nothing in it that
cannot be kept. -/
theorem storable_iff {c : Plugin} (hcopy : c.canCopy) {kept : List Release}
    (hkept : ∀ r ∈ kept, r.writeFault? = none) :
    c.Storable ↔
      (∃ body, (c.behind kept).writeBody = .ok body) ∧ Catalog.tagFault? c.service = none := by
  have hreleases : (∀ r ∈ (c.behind kept).releases, r.writeFault? = none) ↔
      ∀ r ∈ c.releases, r.extras.writeFault? = none := by
    unfold behind
    rw [List.forall_mem_append, and_iff_right hkept, List.forall_mem_map]
    rfl
  constructor
  · rintro ⟨_, hwritten, hextras, htag⟩
    exact ⟨⟨_, writeBody_eq_ok.mpr ⟨hreleases.mpr hwritten, hextras, rfl⟩⟩, htag⟩
  · rintro ⟨⟨body, hbody⟩, htag⟩
    obtain ⟨hwritten, hextras, _⟩ := writeBody_eq_ok.mp hbody
    exact ⟨hcopy, hreleases.mp hwritten, hextras, htag⟩

/-! ## Versions that are there already -/

/-- The first version of a candidate that the plugin has already. -/
def ClashesFirst (current candidate : Plugin) (version : String) : Prop :=
  version ∈ current.versions ∧ ∃ before after, candidate.versions = before ++ version :: after ∧
    ∀ v ∈ before, v ∉ current.versions

theorem firstClash?_eq_some {current candidate : Plugin} {version : String} :
    current.firstClash? candidate = some version ↔ current.ClashesFirst candidate version := by
  unfold firstClash? ClashesFirst
  rw [List.find?_eq_some_iff_append]
  simp

theorem firstClash?_eq_none {current candidate : Plugin} :
    current.firstClash? candidate = none ↔ ∀ v ∈ candidate.versions, v ∉ current.versions := by
  unfold firstClash?
  rw [List.find?_eq_none]
  simp

theorem firstClash?_withoutPreference (current candidate : Plugin) :
    current.firstClash? candidate.withoutPreference = current.firstClash? candidate := by
  unfold firstClash?
  rw [versions_withoutPreference]

/-! ## The record that is kept -/

/-- What is told of a plugin beside its releases and its times. -/
def heading (p : Plugin) : Option String × Option String × Option String :=
  (p.service, p.description, p.provider)

theorem heading_overwrittenBy (old new : Plugin) :
    (old.overwrittenBy new).heading = new.heading := by
  unfold overwrittenBy
  split
  · rename_i h
    have hservice := service_of_alike h
    have hdescription : new.description = old.description := text_of_alike h 2 rfl rfl
    have hprovider : new.provider = old.provider := text_of_alike h 3 rfl rfl
    unfold heading
    rw [hservice, hdescription, hprovider]
  · rfl

/-- The stored releases stay as they are, whether the body is written or not. -/
theorem releases_overwrittenBy_behind {p c : Plugin} (hp : p.WellFormed) (hsteady : p.restored = p)
    (hc : c.WellFormed) :
    (p.overwrittenBy (c.behind p.releases)).releases = p.releases ++ c.incoming := by
  unfold overwrittenBy
  split
  · -- a body that is alike has no more releases, so the candidate brings none
    rename_i halike
    have hmarks := marks_of_alike (hc.behind hp.releases) hp halike
    have hversions : (c.behind p.releases).versions = p.versions := by
      rw [versions_eq_marks, hmarks, versions_eq_marks]
    rw [versions_behind] at hversions
    have hnone : c.releases = [] :=
      List.map_eq_nil_iff.mp (List.append_right_eq_self.mp hversions)
    unfold incoming
    rw [hnone]
    exact (List.append_nil _).symm
  · show (p.releases ++ _).map Release.restored = _
    rw [List.map_append, show p.releases.map Release.restored = p.releases from
      congrArg Plugin.releases hsteady]
    rfl

end Plugin

namespace World

variable {σ : Type}

/-- The record of a candidate is stored, with its releases behind those that are kept. -/
structure Takes (w : World σ) (c : Plugin) (kept : List Release) (w' : World σ) : Prop where
  /-- The releases and all that is told beside them are those of the candidate. -/
  stored : ∃ p, w'.plugin? c.id = some p ∧ p.releases = kept ++ c.incoming ∧
    p.service = c.service ∧ p.description = c.description ∧ p.provider = c.provider
  /-- The other records are as before. -/
  others : ∀ id, id ≠ c.id → w'.row? id = w.row? id

theorem Made.takes {w w' : World σ} {now : CivilTime} {c : Plugin}
    (h : w.Made now (c.behind []) w') : w.Takes c [] w' := by
  obtain ⟨row, hrow, hheld, _⟩ := h.after
  exact ⟨⟨_, plugin?_of_row hrow hheld, rfl, rfl, rfl, rfl⟩, h.others⟩

theorem Rewritten.takes {w w' : World σ} {now : CivilTime} {row : Row} {p c : Plugin}
    (hc : c.WellFormed) (h : w.Rewritten now c.id row p (c.behind p.releases) w') :
    w.Takes c p.releases w' := by
  obtain ⟨row', hrow', hheld, _⟩ := h.after
  have hreleases := Plugin.releases_overwrittenBy_behind h.held.wellFormed h.held.steady hc
  obtain ⟨hservice, hrest⟩ := Prod.mk.inj (Plugin.heading_overwrittenBy p (c.behind p.releases))
  obtain ⟨hdescription, hprovider⟩ := Prod.mk.inj hrest
  exact ⟨⟨_, plugin?_of_row hrow' hheld, hreleases, hservice, hdescription, hprovider⟩, h.others⟩

end World

namespace Registry

open PluginRegistry.Action

variable {σ : Type}

/-! ## The ways in which an upsert ends -/

/-- **What becomes of a candidate**, once its releases stand behind those that are kept. -/
structure Admits (r : Registry σ) (now : CivilTime) (w : World σ) (c : Plugin)
    (kept : List Release) : Prop where
  /-- What the validators object to is refused, with all that they object to. -/
  refused : ¬r.Accepts (c.behind kept) → ∃ w', w.Kept w' ∧ (r.upsert now c).start w =
    (.error (.error (.validation (Validator.report r.validators (c.behind kept)))), w')
  /-- What cannot be kept is not written. -/
  unwritten : r.Accepts (c.behind kept) → ¬c.Storable →
    ∃ failure w', w.Kept w' ∧ (r.upsert now c).start w = (.error failure, w')
  /-- All else is stored. -/
  stored : r.Accepts (c.behind kept) → c.Storable →
    ∃ answer w', (r.upsert now c).start w = (.ok answer, w') ∧ w.Takes c kept w'

theorem validate_of_not_accepts {r : Registry σ} {p : Plugin} (h : ¬r.Accepts p) (w : World σ) :
    ∃ w', w.Kept w' ∧ (r.validate p).start w =
      (.error (.error (.validation (Validator.report r.validators p))), w') := by
  have hnonempty : (Validator.report r.validators p).violations.isEmpty = false := by
    rw [Bool.eq_false_iff]
    exact fun hempty => h (List.isEmpty_iff.mp hempty)
  have hstart : ∃ w', (r.validate p).start w =
      (.error (.error (.validation (Validator.report r.validators p))), w') := by
    unfold validate
    dsimp only
    rw [hnonempty]
    exact ⟨_, rfl⟩
  obtain ⟨w', hstart⟩ := hstart
  exact ⟨w', (keeps_validate r p).of_start hstart, hstart⟩

/-- An upsert that validates, writes and makes a note of it. -/
theorem admits_of_write {r : Registry σ} {now : CivilTime} {w w₁ : World σ} {c : Plugin}
    {kept : List Release} {write : Action σ Plugin} {after : Plugin → Action σ Plugin}
    (hk : w.Kept w₁)
    (hstart : (r.upsert now c).start w =
      (r.validate (c.behind kept) >>= fun _ => write >>= after).start w₁)
    (hwrite : (∃ answer w₂, write.start w₁ = (.ok answer, w₂)) ↔ c.Storable)
    (hafter : ∀ answer, (after answer).Total)
    (htakes : ∀ answer w', (r.upsert now c).start w = (.ok answer, w') → w.Takes c kept w') :
    r.Admits now w c kept where
  refused hrefused := by
    obtain ⟨w', hk', hvalidate⟩ := validate_of_not_accepts hrefused w₁
    refine ⟨w', hk.trans hk', ?_⟩
    rw [hstart, start_bind, hvalidate]
  unwritten haccepts hstorable := by
    -- what went well would have been written
    rcases h : (r.upsert now c).start w with ⟨failure | answer, w'⟩
    · exact ⟨failure, w', atomic_upsert r now c w failure w' h, rfl⟩
    · rw [hstart, start_bind, validate_of_accepts haccepts] at h
      obtain ⟨written, w₂, hwritten, _⟩ := start_bind_eq_ok.mp h
      exact absurd (hwrite.mp ⟨written, w₂, hwritten⟩) hstorable
  stored haccepts hstorable := by
    obtain ⟨written, w₂, hwritten⟩ := hwrite.mpr hstorable
    obtain ⟨answer, w', hafter⟩ := hafter written w₂
    have h : (r.upsert now c).start w = (.ok answer, w') := by
      rw [hstart, start_bind, validate_of_accepts haccepts]
      exact start_bind_eq_ok.mpr ⟨written, w₂, hwritten, hafter⟩
    exact ⟨answer, w', h, htakes answer w' h⟩

/-- A candidate of which nothing is stored. -/
theorem admits_new (r : Registry σ) (now : CivilTime) {w : World σ} (hs : w.Sound) {c : Plugin}
    (hc : c.WellFormed) (hcopy : c.canCopy) (hrow : w.row? c.id = none) :
    r.Admits now w c [] := by
  obtain ⟨t, ht⟩ := hs.table
  rw [World.row?_of_table ht] at hrow
  obtain ⟨w₁, hk, hbyId⟩ := Catalog.byId?_of_missing ht r.timing hc.textFault?_id hrow
  have ht₁ := hk.table.trans ht
  have hwf : (c.behind []).WellFormed := hc.behind (List.forall_mem_nil _)
  have hstart : (r.upsert now c).start w = (r.validate (c.behind []) >>= fun _ =>
      Catalog.insert r.timing now c.id (c.behind []) >>= fun created =>
        Action.note .pluginCreated ("Created plugin " ++ shownId c.id) >>= fun _ =>
          pure created).start w₁ := by
    unfold upsert requireCopy
    rw [hcopy, start_bind]
    show start (Catalog.byId? r.timing c.id >>= _) w = _
    rw [start_bind, hbyId]
    rfl
  refine admits_of_write hk hstart ?_ (fun _ => (total_note _ _).bind fun _ => total_pure _) ?_
  · rw [Plugin.storable_iff hcopy (List.forall_mem_nil _)]
    constructor
    · rintro ⟨answer, w₂, hinsert⟩
      obtain ⟨body, _, _, hbody, htag, _⟩ := Catalog.insert_eq_ok ht₁ hinsert
      exact ⟨⟨body, hbody⟩, htag⟩
    · rintro ⟨⟨body, hbody⟩, htag⟩
      exact Catalog.insert_of_new ht₁ r.timing now hwf hrow hbody htag
        (hk.readOnly.trans hs.writable)
  · intro answer w' h
    cases (upsert_replies hs hc h).1 with
    | made _ hmade _ => exact hmade.takes
    | revised stamp htarget _ _ _ _ hrewritten _ =>
        cases htarget
        cases hrewritten.before.symm.trans ((World.row?_of_table ht c.id).trans hrow)
    | unchanged htarget _ => cases htarget

/-- What an upsert does once it has found a record. -/
theorem upsert_of_stored (r : Registry σ) (now : CivilTime) {w : World σ} (hs : w.Sound)
    {c s : Plugin} (hcopy : c.canCopy) (hstored : w.plugin? c.id = some s) :
    ∃ w', w.Kept w' ∧ ∀ validators : List Validator,
      ({ r with validators }.upsert now c).start w =
        (match s.firstClash? c with
          | some version => Action.refuse
              (.invalidRequest (.publishedRelease version) (.str c.id) (.str version) .null)
          | none => { r with validators }.validate (c.behind s.releases) >>= fun _ =>
              Catalog.update r.timing now c.id (c.behind s.releases) >>= fun written =>
                Action.note .pluginMerged ("Merged plugin " ++ shownId c.id ++
                  s!" ({(c.behind s.releases).releases.length} releases)") >>= fun _ =>
                    pure written).start w' := by
  obtain ⟨t, ht⟩ := hs.table
  obtain ⟨row, p, hrow, hp, rfl⟩ := hs.row_of_plugin? hstored
  have hid := hs.textFault?_of_row hrow
  rw [World.row?_of_table ht] at hrow
  obtain ⟨w', hk, hbyId⟩ := Catalog.byId?_of_row ht r.timing hid hrow hp.ofRow
  refine ⟨w', hk, fun validators => ?_⟩
  unfold upsert requireCopy
  rw [hcopy, start_bind]
  show start (Catalog.byId? r.timing c.id >>= _) w = _
  rw [start_bind, hbyId]
  dsimp only
  rw [Plugin.firstClash?_withoutPreference]
  cases (p.timed row).firstClash? c with
  | none => rfl
  | some version => rfl

/-- A candidate none of whose versions is stored. -/
theorem admits_merged (r : Registry σ) (now : CivilTime) {w : World σ} (hs : w.Sound)
    {c s : Plugin} (hc : c.WellFormed) (hcopy : c.canCopy) (hstored : w.plugin? c.id = some s)
    (hclash : s.firstClash? c = none) : r.Admits now w c s.releases := by
  obtain ⟨w₁, hk, hstart⟩ := upsert_of_stored r now hs hcopy hstored
  obtain ⟨t, ht⟩ := hs.table
  obtain ⟨row, p, hrow, hp, rfl⟩ := hs.row_of_plugin? hstored
  have hfound : t.find? (c.behind p.releases).id = some row := by
    rw [← World.row?_of_table ht, ← hrow]
    rfl
  have hid : textFault? (c.behind p.releases).id = none := hc.textFault?_id
  have ht₁ := hk.table.trans ht
  have hkept : ∀ release ∈ p.releases, release.writeFault? = none :=
    (Plugin.writeBody_eq_ok.mp hp.body).1
  have hstart' := hstart r.validators
  rw [hclash] at hstart'
  refine admits_of_write hk hstart' ?_ (fun _ => (total_note _ _).bind fun _ => total_pure _) ?_
  · rw [Plugin.storable_iff hcopy hkept]
    constructor
    · rintro ⟨answer, w₂, hupdate⟩
      obtain ⟨_, body, _, _, hbody, htag, _⟩ := Catalog.update_eq_ok ht₁ hupdate
      exact ⟨⟨body, hbody⟩, htag⟩
    · rintro ⟨⟨body, hbody⟩, htag⟩
      exact Catalog.update_of_row ht₁ r.timing now hid hfound hbody htag
        (hk.readOnly.trans hs.writable)
  · intro answer w' h
    cases (upsert_replies hs hc h).1 with
    | made _ hmade _ => cases hrow.symm.trans hmade.before
    | @revised _ _ _ row' p' q stamp htarget _ hrevision _ _ hrewritten _ =>
        cases htarget
        cases hrow.symm.trans hrewritten.before
        cases hp.unique hrewritten.held
        cases (Option.ite_none_right_eq_some.mp hrevision).2
        show w.Takes c p.releases w'
        exact hrewritten.takes hc
    | unchanged htarget _ => cases htarget

/-- A plugin with a release, once it was preferred. -/
def firstEdition : World Unit :=
  (plain none).run [⟨default, .upsert (.bare "acme.a" [.bare "1.0.0" false])⟩,
    ⟨default, .preferRelease "acme.a" (.str "1.0.0") (.bool true) (some "kim")⟩] (.blank ())

/-- A second edition of it, with both of its releases preferred. -/
def secondEdition : Plugin := .bare "acme.a" [.bare "2.0.0" true, .bare "3.0.0" true]

/-- One with a release that is there already. -/
def reprint : Plugin := .bare "acme.a" [.bare "2.0.0" true, .bare "1.0.0" true]

end Registry

end PluginRegistry
