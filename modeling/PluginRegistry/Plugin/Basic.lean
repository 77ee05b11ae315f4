import PluginRegistry.Plugin.Release

/-!
# Plugins

The record of a plugin owns an ordered list of releases. It is kept as a JSON object, its body; the
times of its creation and of its last change are not part of the body, since the catalog keeps them.
-/

namespace PluginRegistry

/-- The record of a plugin. -/
structure Plugin where
  id : String
  service : Option String
  description : Option String
  provider : Option String
  releases : List Release
  createTs : Option Moment
  lastModified : Option Moment
  extras : Extras

namespace Plugin

/-! ## Releases by version -/

/-- The versions of the releases, in order. -/
def versions (p : Plugin) : List String := p.releases.map Release.version

/-- The first release of a version. -/
def release? (version : String) (p : Plugin) : Option Release :=
  p.releases.find? (·.version = version)

/-- The releases with the first one of that version replaced, or with the new one at the end. -/
def setRelease (version : String) (release : Release) : List Release → List Release
  | [] => [release]
  | r :: rest =>
    if r.version = version then release :: rest else r :: setRelease version release rest

/-- The plugin with the first release of that version replaced, or with the new one at the end. -/
def setReleaseByVersion (version : String) (release : Release) (p : Plugin) : Plugin :=
  { p with releases := setRelease version release p.releases }

/-! ## Reading -/

/-- The declared fields, in order. -/
def fields : List Schema.Field :=
  [⟨"id", "id"⟩, ⟨"service", "service"⟩, ⟨"description", "description"⟩,
    ⟨"provider", "provider"⟩, ⟨"releases", "releases"⟩, ⟨"createTs", "create_ts"⟩,
    ⟨"lastModified", "last_modified"⟩]

/-- Reads a plugin. -/
def ofDocument : Document → Schema.Checked Plugin
  | .map entries =>
    let text := fun field => Schema.optional entries field none (Schema.nullable Schema.text)
    let moment := fun field => Schema.optional entries field none (Schema.nullable Schema.moment)
    Plugin.mk
      <$> Schema.required entries ⟨"id", "id"⟩ Schema.nonemptyText
      <*> text ⟨"service", "service"⟩
      <*> text ⟨"description", "description"⟩
      <*> text ⟨"provider", "provider"⟩
      <*> Schema.optional entries ⟨"releases", "releases"⟩ [] (Schema.list Release.ofDocument)
      <*> moment ⟨"createTs", "create_ts"⟩
      <*> moment ⟨"lastModified", "last_modified"⟩
      <*> Schema.extras fields entries
  | _ => .fail (.noRecord "PluginInfo")

/-- The plugin that a document is, or every fault of it. -/
def read (document : Document) : Except Schema.Rejection Plugin :=
  (ofDocument document).forRecord "PluginInfo"

/-! ## Writing -/

/-- The fields of the body, in order. -/
def bodyMembers (p : Plugin) : List (String × Json) :=
  [("id", .str p.id), ("service", .ofText? p.service), ("description", .ofText? p.description),
    ("provider", .ofText? p.provider), ("releases", .arr (p.releases.map Release.toJson))]

/-- The plugin as a JSON object: its fields under their keys, then the other keys. -/
def toJson (p : Plugin) : Json :=
  .obj (p.bodyMembers ++
    [("createTs", .ofText? (p.createTs.map Moment.text)),
      ("lastModified", .ofText? (p.lastModified.map Moment.text))] ++ p.extras.payload)

/-- A key that the body leaves out: the times are no part of it under either name. -/
def isTimeKey (key : String) : Bool := key = "create_ts" || key = "last_modified"

/-- The undeclared entries that the body has. -/
def bodyExtras (p : Plugin) : Extras := p.extras.filter fun extra => !isTimeKey extra.1

/-- The body of the record. -/
def body (p : Plugin) : Json := .obj (p.bodyMembers ++ p.bodyExtras.payload)

/-- The plugin can be copied with its releases. -/
def canCopy (p : Plugin) : Bool :=
  p.extras.canCopy && p.releases.all fun release => release.extras.canCopy

/-- Why the releases cannot be written: the first fault. -/
def releaseFault? (p : Plugin) : Option WriteFault := p.releases.findSome? Release.writeFault?

/-- The plugin as a JSON object, if it can be written. -/
def write (p : Plugin) : Except WriteFault Json :=
  match p.releaseFault? <|> p.extras.writeFault? with
  | some fault => .error fault
  | none => .ok p.toJson

/-- The body of the record, if it can be written. -/
def writeBody (p : Plugin) : Except WriteFault Json :=
  match p.releaseFault? <|> p.bodyExtras.writeFault? with
  | some fault => .error fault
  | none => .ok p.body

end Plugin

/-- The release that a document is, or every fault of it. -/
def Release.read (document : Document) : Except Schema.Rejection Release :=
  (Release.ofDocument document).forRecord "Release"

end PluginRegistry
