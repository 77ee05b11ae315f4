import PluginRegistry.Catalog.Records
import PluginRegistry.Identity
import PluginRegistry.Log.Audit
import PluginRegistry.Plugin.Changes
import PluginRegistry.Storage.Artifacts
import PluginRegistry.Validation.Rules

/-!
# The registry

The operations on plugins and their releases. Each reads a record, changes it and writes it back,
and nothing is written unless the validators have nothing to object to. An upsert makes a record or
adds releases to it, and never touches a release that is there; only `upsertRelease` replaces one.
Changes of releases bear the time and the acting user. Removing a release removes its artifact as
well, and goes through even if the artifact cannot be removed.
-/

namespace PluginRegistry

/-- What the registry is made of: a store of artifacts, if there is one, the validators, the way to
find the acting user and the name to use when there is none. -/
structure Registry (σ : Type) where
  store : Option (ArtifactStore σ)
  validators : List Validator
  resolver : Option Resolver
  anonymousUser : String
  timing : Timing

namespace Registry

variable {σ : Type}

/-- Notes a change of a record. -/
def audit (topic : Log.Topic) (action user plugin : String) (version : Json) : Action σ Unit :=
  .note topic (Log.Audit.line ⟨.str action, .str user, .str plugin, version, .bool true⟩)

/-- The id as it is shown in the log. -/
def shownId (id : String) : String := Log.sanitizeText Log.usualLimit id

/-- Who acts: the user that is named, else the one that the resolver gives, else nobody known. -/
def actor (r : Registry σ) (user : Option String) : Action σ String := do
  match user.filter (· ≠ ""), r.resolver with
  | some name, _ => return name
  | none, none => return r.anonymousUser
  | none, some resolver =>
    let asked := (← get).asked
    modify fun w => { w with asked := asked + 1 }
    return Identity.choose r.anonymousUser [resolver asked]

/-- Fails if the validators object to a record. -/
def validate (r : Registry σ) (plugin : Plugin) : Action σ Unit := do
  let report := Validator.report r.validators plugin
  unless report.violations.isEmpty do
    Action.note .validationFailed ("Validation failed for plugin " ++ shownId plugin.id ++
      s!": {report.violations.length} error(s)")
    Action.refuse (.validation report)

/-- Fails if a record has too many levels to be copied. -/
def requireCopy (canCopy : Bool) : Action σ Unit := unless canCopy do throw .nesting

/-! ## Reading -/

/-- Every record. -/
def findAll (r : Registry σ) : Action σ (List Plugin) := Catalog.all r.timing

/-- The records that are tagged with a service. -/
def findByService (r : Registry σ) (service : Option String) : Action σ (List Plugin) :=
  match service.filter (!Text.isAllBlank ·) with
  | some tag => Catalog.byService r.timing (.str tag)
  | none => .refuse (.invalidRequest .blankService .null .null .null)

/-- The record of an id. -/
def find (r : Registry σ) (id : String) : Action σ Plugin := Catalog.byId r.timing id

/-! ## Records -/

/-- Makes a record, or adds releases to the one that is there. No release comes in as preferred. -/
def upsert (r : Registry σ) (now : CivilTime) (plugin : Plugin) : Action σ Plugin := do
  requireCopy plugin.canCopy
  let candidate := plugin.withoutPreference
  match ← Catalog.byId? r.timing candidate.id with
  | none =>
    r.validate candidate
    let created ← Catalog.insert r.timing now candidate.id candidate
    Action.note .pluginCreated ("Created plugin " ++ shownId candidate.id)
    return created
  | some current =>
    if let some version := current.firstClash? candidate then
      Action.refuse
        (.invalidRequest (.publishedRelease version) (.str candidate.id) (.str version) .null)
    let merged := current.mergedInto candidate
    r.validate merged
    let written ← Catalog.update r.timing now candidate.id merged
    Action.note .pluginMerged
      ("Merged plugin " ++ shownId candidate.id ++ s!" ({merged.releases.length} releases)")
    return written

/-- Removes the artifact of a release. A fault of the store is noted and goes no further. -/
def deleteArtifact (r : Registry σ) (plugin : String) (version : Json) : Action σ Unit := do
  if let some store := r.store then
    let failed := fun (key : Option String) (fault : StoreFault) =>
      Action.note .artifactLeft ("Failed to delete binary for " ++
        Log.releaseName (.str plugin) version ++ " (key=" ++
        Log.sanitize Log.usualLimit (.ofText? key) ++ "), artifact left orphaned: " ++
        fault.message)
    match store.getKey plugin version.display with
    | .error fault => failed none fault
    | .ok key =>
      let (result, artifacts, entries) := store.delete key (← get).artifacts
      modify fun w => { w with artifacts, log := w.log ++ entries }
      if let .error fault := result then failed (some key) fault

/-- Writes a record without some of its releases, and removes the artifact of a version. -/
def dropReleases (r : Registry σ) (now : CivilTime) (id : String) (version : Json)
    (change : Plugin → Plugin) (user : Option String) : Action σ Plugin := do
  let plugin := change (← r.find id)
  let written ← Catalog.update r.timing now plugin.id plugin
  audit .releaseDeleted "delete_release" (← r.actor user) id version
  r.deleteArtifact id version
  return written

/-- Removes the releases of a version, and their artifact. The record is written even if there is no
such release. -/
def deleteRelease (r : Registry σ) (now : CivilTime) (id version : String)
    (user : Option String) : Action σ Plugin :=
  r.dropReleases now id (.str version) (·.drop version) user

/-- Removes what there is under a version that is no text, which is no release. -/
def deleteNoRelease (r : Registry σ) (now : CivilTime) (id : String) (version : Json)
    (user : Option String) : Action σ Plugin :=
  r.dropReleases now id version (fun plugin => plugin) user

/-- Removes a record, one release after the other. An id that is not there is passed over. -/
def delete (r : Registry σ) (now : CivilTime) (id : String) (user : Option String) :
    Action σ Unit := do
  if let some plugin ← Catalog.byId? r.timing id then
    for release in plugin.releases do
      let _ ← r.deleteRelease now id release.version user
    Catalog.delete r.timing id
    audit .pluginDeleted "delete" (← r.actor user) id .null

/-! ## Releases -/

/-- Adds a release to a plugin. -/
def createRelease (r : Registry σ) (now : CivilTime) (id : String) (release : Release)
    (user : Option String) : Action σ Plugin := do
  let stamp : Stamp := ⟨now, ← r.actor user⟩
  requireCopy release.extras.canCopy
  let release := release.stamped stamp
  let plugin := (← r.find id).append stamp release
  r.validate plugin
  let written ← Catalog.update r.timing now plugin.id plugin
  audit .releaseCreated "create_release" stamp.actor id (.str release.version)
  return written

/-- Replaces a release of a plugin by one of the same version. -/
def upsertRelease (r : Registry σ) (now : CivilTime) (id : String) (release : Release)
    (user : Option String) : Action σ Plugin := do
  let stamp : Stamp := ⟨now, ← r.actor user⟩
  requireCopy release.extras.canCopy
  let release := release.stamped stamp
  let current ← r.find id
  if (current.release? release.version).isNone then
    Action.refuse (.noRelease id release.version)
  let plugin := current.replace stamp release
  r.validate plugin
  let written ← Catalog.update r.timing now plugin.id plugin
  audit .releaseReplaced "upsert_release" stamp.actor id (.str release.version)
  return written

/-- Sets or clears the preference for a release, by a flag or by any other value. -/
def preferRelease (r : Registry σ) (now : CivilTime) (id version : String) (preference : Json)
    (user : Option String) : Action σ Release := do
  let current ← r.find id
  match current.release? version with
  | none => .refuse (.noRelease id version)
  | some release =>
    let stamp : Stamp := ⟨now, ← r.actor user⟩
    let release := (release.preferAs preference).stamped stamp
    let plugin := current.replace stamp release
    let _ ← Catalog.update r.timing now plugin.id plugin
    audit .preferenceChanged
      (if release.preferred then "prefer_release" else "unprefer_release") stamp.actor id
      (.str version)
    return release

/-- Asks for a preference under a version that is no text, where there is no release. -/
def preferNoRelease (r : Registry σ) (id : String) (version : Json) : Action σ Release := do
  let _ ← r.find id
  Action.refuse (.releaseNotFound (.str id) version)

end Registry

end PluginRegistry
