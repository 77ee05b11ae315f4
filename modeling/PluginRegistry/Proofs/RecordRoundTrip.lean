import PluginRegistry.Catalog.Table
import PluginRegistry.Proofs.JsonValues
import PluginRegistry.Proofs.RecordReading

/-!
# Records go through the catalog unchanged

A record that is read from a JSON text has its undeclared entries as the values that stand there. So
nothing of it is lost when its body is written and read again: only the times are those of the row,
and two undeclared keys that are spelled like their names are left out. The body is written exactly
if the undeclared values are not nested too deeply and their whole numbers have not too many digits.
-/

namespace PluginRegistry

/-- There is room for the value in a body. -/
def Json.Fits (value : Json) : Prop := value.levels ≤ levelLimit ∧ value.digitsFit

instance (value : Json) : Decidable value.Fits := inferInstanceAs (Decidable (_ ∧ _))

namespace Extras

/-- The entries are values of JSON as they stand. -/
def Settled (extras : Extras) : Prop :=
  ∀ e ∈ extras, ∃ value : Json, value.isRegular ∧ e.2 = value.toDocument

theorem settled_of_extras {fields : List Schema.Field} {members : List (String × Json)}
    {left : Extras} (hmembers : (Json.obj members).isRegular)
    (h : Schema.extras fields (Json.toEntries members) = .ok left) : left.Settled := by
  intro e he
  obtain ⟨m, hm, hvalue⟩ := Schema.mem_of_extras h e he
  exact ⟨m.2, (Json.isRegular_obj.mp hmembers).2 m hm, hvalue⟩

theorem Settled.filter {extras : Extras} (h : extras.Settled) (keep : String × Document → Bool) :
    Extras.Settled (extras.filter keep) :=
  fun e he => h e (List.mem_filter.mp he).1

/-- What is settled is read back as it was. -/
theorem Settled.restored {extras : Extras} (h : extras.Settled) : extras.restored = extras := by
  have hsame : ∀ e ∈ extras, (e.1, e.2.payload.toDocument) = e := by
    intro e he
    obtain ⟨value, hvalue, heq⟩ := h e he
    have hsteady : value.toDocument.payload = value := Json.steady_of_isRegular value hvalue
    rw [heq, hsteady, ← heq]
  unfold Extras.restored
  rw [List.map_congr_left hsame, List.map_id'']
  exact fun _ => rfl

/-- There is room for every entry. -/
def Fit (extras : Extras) : Prop := ∀ m ∈ extras.payload, m.2.Fits

theorem Settled.writeFault?_eq_none {extras : Extras} (h : extras.Settled) :
    extras.writeFault? = none ↔ extras.Fit := by
  rw [Extras.writeFault?_eq_none]
  unfold Fit payload
  rw [List.forall_mem_map]
  refine forall₂_congr fun e he => ?_
  obtain ⟨value, hvalue, heq⟩ := h e he
  have hsteady : value.toDocument.payload = value := Json.steady_of_isRegular value hvalue
  rw [heq, hsteady]
  exact Json.faultWithin?_toDocument value levelLimit

end Extras

/-! ## Releases -/

namespace Release

theorem settled_of_ofDocument {json : Json} {r : Release} (hjson : json.isRegular)
    (h : ofDocument json.toDocument = .ok r) : r.extras.Settled := by
  obtain ⟨members, rfl, _, _, hextras⟩ := ofDocument_eq_ok h
  exact Extras.settled_of_extras hjson hextras

theorem restored_of_settled {r : Release} (h : r.extras.Settled) : r.restored = r := by
  unfold restored
  rw [h.restored]

theorem writeFault?_eq_none {r : Release} (hr : r.WellFormed) (h : r.extras.Settled) :
    r.writeFault? = none ↔ r.extras.Fit := by
  have hstated : r.statedPreference.writeFault? = none := by
    unfold statedPreference
    rw [hr.flagged]
    rfl
  unfold writeFault?
  rw [Option.orElse_eq_none, h.writeFault?_eq_none]
  exact and_iff_right hstated

end Release

/-! ## Plugins -/

namespace Plugin

/-- The record has its undeclared entries as they stand in JSON. -/
structure Settled (p : Plugin) : Prop where
  /-- So does every release. -/
  releases : ∀ r ∈ p.releases, r.extras.Settled
  /-- The entries beside the releases are settled. -/
  extras : p.extras.Settled

/-- There is room for what is undeclared in the record and goes into its body. -/
structure Fits (p : Plugin) : Prop where
  /-- There is room for the entries of every release. -/
  releases : ∀ r ∈ p.releases, r.extras.Fit
  /-- There is room for the entries beside the releases. -/
  extras : p.bodyExtras.Fit

theorem settled_of_read {json : Json} {p : Plugin} (hjson : json.isRegular)
    (h : read json.toDocument = .ok p) : p.Settled := by
  obtain ⟨members, rfl, _, hreleases, hextras⟩ := ofDocument_eq_ok (read_eq_ok h)
  refine ⟨fun r hr => ?_, Extras.settled_of_extras hjson hextras⟩
  obtain ⟨key, items, hmember, item, hitem, hread⟩ := hreleases r hr
  have hitems := (Json.isRegular_obj.mp hjson).2 _ hmember
  exact Release.settled_of_ofDocument (Json.isRegular_arr.mp hitems item hitem) hread

theorem Settled.restored {p : Plugin} (h : p.Settled) :
    p.restored = { p with extras := p.bodyExtras, createTs := none, lastModified := none } := by
  have hreleases : p.releases.map Release.restored = p.releases := by
    rw [List.map_congr_left fun r hr => Release.restored_of_settled (h.releases r hr), List.map_id']
  have hextras : p.bodyExtras.restored = p.bodyExtras := (h.extras.filter _).restored
  unfold Plugin.restored
  rw [hreleases, hextras]

/-- The body of a settled record is written exactly if there is room for it. -/
theorem Settled.writeBody_eq_ok {p : Plugin} (h : p.Settled) (hp : p.WellFormed) :
    p.writeBody = .ok p.body ↔ p.Fits := by
  have hreleases : (∀ r ∈ p.releases, r.writeFault? = none) ↔ ∀ r ∈ p.releases, r.extras.Fit :=
    forall₂_congr fun r hr => Release.writeFault?_eq_none (hp.releases r hr) (h.releases r hr)
  have hextras : p.bodyExtras.writeFault? = none ↔ p.bodyExtras.Fit :=
    (h.extras.filter _).writeFault?_eq_none
  rw [Plugin.writeBody_eq_ok, hreleases, hextras]
  exact ⟨fun ⟨hfit, hbody, _⟩ => ⟨hfit, hbody⟩, fun hfits => ⟨hfits.releases, hfits.extras, rfl⟩⟩

/-- **A record that is read from JSON goes through the catalog unchanged**, but for its times and
for what is undeclared under the names of these. If there is no room for its values, it is not
written at all. The JSON is regular: no object has a key twice, and every number is finite. One that
is too large for a double, such as `1e400`, is read as infinite and would come back as null. -/
theorem round_trip {json : Json} {p : Plugin} (hjson : json.isRegular)
    (hp : read json.toDocument = .ok p) :
    (p.Fits → ∃ body, p.writeBody = .ok body ∧ ∀ row : Row, row.body = body →
      ofRow row = .ok { p with
        extras := p.bodyExtras
        createTs := some (.utc row.createdAt)
        lastModified := some (.utc row.lastModified) }) ∧
    (¬p.Fits → ∃ fault, p.writeBody = .error fault) := by
  have hsettled := settled_of_read hjson hp
  have hwf := wellFormed_of_read hp
  have hwrite := hsettled.writeBody_eq_ok hwf
  refine ⟨fun hfits => ⟨p.body, hwrite.mpr hfits, fun row hrow => ?_⟩, fun hfits => ?_⟩
  · unfold ofRow
    rw [hrow, read_body hwf, hsettled.restored]
    rfl
  · cases hbody : p.writeBody with
    | error fault => exact ⟨fault, rfl⟩
    | ok body =>
        obtain ⟨_, _, rfl⟩ := Plugin.writeBody_eq_ok.mp hbody
        exact absurd (hwrite.mp hbody) hfits

/-- A document that spells fields both ways, and has undeclared values under their names. -/
def mixedSpelling : Json :=
  .obj [("id", .str "acme.a"), ("create_ts", .int 7), ("createTs", .str "2026-03-14T09:26:53Z"),
    ("releases", .arr [.obj [("version", .str " 1.0.0 "), ("releaseNotes", .str "fast"),
      ("release_notes", .obj [("note", .arr [.int 1, .bool true, .null])]),
      ("sha512sum", .str "ab"), ("preferred", .str "yes"),
      ("last_modified", .str "2026-03-14T10:26:53.5+01:00")]]),
    ("homepage", .float (.finite (.zero true)))]

/-- It goes through the catalog, with what is undeclared. -/
theorem round_trip_mixedSpelling :
    ∃ p body, read mixedSpelling.toDocument = .ok p ∧ p.versions = ["1.0.0"] ∧
      p.bodyExtras.map Prod.fst = ["homepage"] ∧ p.writeBody = .ok body ∧
      ∀ row : Row, row.body = body → ofRow row = .ok { p with
        extras := p.bodyExtras
        createTs := some (.utc row.createdAt)
        lastModified := some (.utc row.lastModified) } := by
  have hread : (read mixedSpelling.toDocument).toOption.map
      (fun p => (p.versions, p.bodyExtras.map Prod.fst, p.writeBody.isOk))
        = some (["1.0.0"], ["homepage"], true) := by
    decide +kernel
  obtain ⟨p, hp, hseen⟩ := Option.map_eq_some_iff.mp hread
  have hp' : read mixedSpelling.toDocument = .ok p := by
    cases h : read mixedSpelling.toDocument with
    | error fault =>
        rw [h] at hp
        cases hp
    | ok q =>
        rw [h] at hp
        exact congrArg _ (Option.some.inj hp)
  obtain ⟨hversions, hseen⟩ := Prod.mk.inj hseen
  obtain ⟨hkeys, hwritten⟩ := Prod.mk.inj hseen
  obtain ⟨hfit, hunfit⟩ := round_trip (by decide +kernel) hp'
  by_cases hfits : p.Fits
  · obtain ⟨body, hbody, hback⟩ := hfit hfits
    exact ⟨p, body, hp', hversions, hkeys, hbody, hback⟩
  · obtain ⟨fault, hfault⟩ := hunfit hfits
    rw [hfault] at hwritten
    cases hwritten

/-- A value in a list in a list, and so on. -/
def nested (depth : Nat) : Json :=
  match depth with
  | 0 => .null
  | depth + 1 => .arr [nested depth]

/-- There is no room for a value that has one level more than fits. -/
theorem faultWithin?_nested (depth : Nat) :
    (nested depth).toDocument.faultWithin? depth = some .nesting := by
  induction depth with
  | zero => rfl
  | succ depth ih =>
      show Document.itemFault? depth [(nested depth).toDocument] = _
      rw [Document.itemFault?, ih]
      rfl

/-- A document with one undeclared value. -/
def withValue (value : Json) : Json := .obj [("id", .str "acme.a"), ("x", value)]

theorem read_withValue (value : Json) :
    read (withValue value).toDocument
      = .ok ⟨"acme.a", none, none, none, [], none, none, [("x", value.toDocument)]⟩ := rfl

theorem writeBody_of_fault {p : Plugin} {fault : WriteFault} (hreleases : p.releaseFault? = none)
    (hextras : p.bodyExtras.writeFault? = some fault) : p.writeBody = .error fault := by
  unfold writeBody
  rw [hreleases, hextras]
  rfl

theorem writeBody_withValue {value : Json} {fault : WriteFault}
    (h : value.toDocument.writeFault? = some fault) :
    writeBody ⟨"acme.a", none, none, none, [], none, none, [("x", value.toDocument)]⟩
      = .error fault := by
  refine writeBody_of_fault rfl ?_
  show Extras.writeFault? [("x", value.toDocument)] = some fault
  simp [Extras.writeFault?, h]

/-- A document with a value of one level more than can be written is read as a record, and the
record cannot be written. -/
theorem round_trip_fails_tooDeep :
    (withValue (nested levelLimit)).isRegular ∧
      ∃ p, read (withValue (nested levelLimit)).toDocument = .ok p ∧
        p.writeBody = .error .nesting :=
  ⟨by decide +kernel, _, read_withValue _, writeBody_withValue (faultWithin?_nested levelLimit)⟩

end Plugin

end PluginRegistry
