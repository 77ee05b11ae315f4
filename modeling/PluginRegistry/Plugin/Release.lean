import PluginRegistry.Plugin.Requirement
import PluginRegistry.Schema.Field

/-!
# Releases

One published version of a plugin. The version, the preferred flag and the audit stamps mean
something to the registry; the rest, with the keys that are not declared here, is passed through
unchanged.

A preference may be stated by a value that is no flag. It counts by its truth, and until the record
is read again the release shows the value itself.
-/

namespace PluginRegistry

/-- A release of a plugin. -/
structure Release where
  version : String
  date : Option String
  requires : Option String
  url : Option String
  sha512sum : Option String
  releaseNotes : Option String
  preferred : Bool
  preferredAs : Option Json
  lastModified : Option Moment
  lastModifiedBy : Option String
  extras : Extras

/-- Who changed something, and when. -/
structure Stamp where
  time : CivilTime
  actor : String

namespace Release

/-! ## What a release says -/

/-- The entries of its requirements, well formed or not. -/
def requirementEntries (r : Release) : List String :=
  match r.requires with
  | some list => Requirement.entries list
  | none => []

/-- The requirements that are well formed. -/
def requirements (r : Release) : List Requirement :=
  r.requirementEntries.filterMap Requirement.parse?

/-- The release with the stamp of a change. -/
def stamped (stamp : Stamp) (r : Release) : Release :=
  { r with lastModified := some (.utc stamp.time), lastModifiedBy := some stamp.actor }

/-- The release with its preference stated by a flag. -/
def withPreference (preferred : Bool) (r : Release) : Release :=
  { r with preferred, preferredAs := none }

/-- The release with its preference stated by any value. -/
def preferAs (value : Json) (r : Release) : Release :=
  match value with
  | .bool preferred => r.withPreference preferred
  | value => { r with preferred := value.truthy, preferredAs := some value }

/-! ## Reading -/

/-- The declared fields, in order. -/
def fields : List Schema.Field :=
  [⟨"version", "version"⟩, ⟨"date", "date"⟩, ⟨"requires", "requires"⟩, ⟨"url", "url"⟩,
    ⟨"sha512Sum", "sha512sum"⟩, ⟨"releaseNotes", "release_notes"⟩, ⟨"preferred", "preferred"⟩,
    ⟨"lastModified", "last_modified"⟩, ⟨"lastModifiedBy", "last_modified_by"⟩]

/-- Reads a release. Blanks around its version are dropped. -/
def ofDocument : Document → Schema.Checked Release
  | .map entries =>
    let text := fun field => Schema.optional entries field none (Schema.nullable Schema.text)
    Release.mk
      <$> (Schema.required entries ⟨"version", "version"⟩ Schema.text).map Text.trimmed
      <*> text ⟨"date", "date"⟩
      <*> text ⟨"requires", "requires"⟩
      <*> text ⟨"url", "url"⟩
      <*> text ⟨"sha512Sum", "sha512sum"⟩
      <*> text ⟨"releaseNotes", "release_notes"⟩
      <*> Schema.optional entries ⟨"preferred", "preferred"⟩ false Schema.flag
      <*> pure none
      <*> Schema.optional entries ⟨"lastModified", "last_modified"⟩ none
        (Schema.nullable Schema.moment)
      <*> text ⟨"lastModifiedBy", "last_modified_by"⟩
      <*> Schema.extras fields entries
  | _ => .fail (.noRecord "Release")

/-! ## Writing -/

/-- The value by which the preference was stated. -/
def statedPreference (r : Release) : Document :=
  (r.preferredAs.getD (.bool r.preferred)).toDocument

/-- The declared fields with their values, in order. -/
def members (r : Release) : List (Schema.Field × Json) :=
  [(⟨"version", "version"⟩, .str r.version),
    (⟨"date", "date"⟩, .ofText? r.date),
    (⟨"requires", "requires"⟩, .ofText? r.requires),
    (⟨"url", "url"⟩, .ofText? r.url),
    (⟨"sha512Sum", "sha512sum"⟩, .ofText? r.sha512sum),
    (⟨"releaseNotes", "release_notes"⟩, .ofText? r.releaseNotes),
    (⟨"preferred", "preferred"⟩, r.statedPreference.payload),
    (⟨"lastModified", "last_modified"⟩, .ofText? (r.lastModified.map Moment.text)),
    (⟨"lastModifiedBy", "last_modified_by"⟩, .ofText? r.lastModifiedBy)]

/-- The release as a JSON object: its fields under their keys, then the other keys. -/
def toJson (r : Release) : Json :=
  .obj (r.members.map (fun member => (member.1.key, member.2)) ++ r.extras.payload)

/-- The release under the names of its fields. A key that was not declared but is spelled like a
name takes the place of that field. -/
def toNamedJson (r : Release) : Json :=
  .obj (r.extras.payload.foldl (fun all extra => putMember extra.1 extra.2 all)
    (r.members.map fun member => (member.1.name, member.2)))

/-- Why the release cannot be written. -/
def writeFault? (r : Release) : Option WriteFault :=
  r.statedPreference.writeFault? <|> r.extras.writeFault?

/-- The release as a JSON object, if it can be written. -/
def write (r : Release) : Except WriteFault Json :=
  match r.writeFault? with
  | some fault => .error fault
  | none => .ok r.toJson

end Release

end PluginRegistry
