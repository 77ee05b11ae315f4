import PluginRegistry.Plugin.Basic

/-!
# Changes of a record

What the operations of the registry do to a record, apart from storing it. At most one release of a
plugin is preferred: whenever a release becomes preferred, its siblings, told by their versions,
stop being so and bear the stamp of the change.
-/

namespace PluginRegistry

namespace Release

/-- The release, not preferred any more, with the stamp of the change. -/
def demoted (stamp : Stamp) (r : Release) : Release :=
  (r.withPreference false).stamped stamp

/-- The releases after one of them was written: if it is preferred, its siblings are not. -/
def settle (stamp : Stamp) (written : Release) (releases : List Release) : List Release :=
  if written.preferred then
    releases.map fun r => if r.version = written.version then r else r.demoted stamp
  else releases

end Release

namespace Plugin

/-- The plugin with no release preferred. -/
def withoutPreference (p : Plugin) : Plugin :=
  { p with releases := p.releases.map (·.withPreference false) }

/-- The first version of a candidate that the plugin has already. -/
def firstClash? (current candidate : Plugin) : Option String :=
  candidate.versions.find? current.versions.contains

/-- The candidate with the releases of the current record in front of its own. -/
def mergedInto (current candidate : Plugin) : Plugin :=
  { candidate with releases := current.releases ++ candidate.releases }

/-- The plugin with one more release. -/
def append (stamp : Stamp) (release : Release) (p : Plugin) : Plugin :=
  { p with releases := release.settle stamp (p.releases ++ [release]) }

/-- The plugin with the first release of that version replaced. -/
def replace (stamp : Stamp) (release : Release) (p : Plugin) : Plugin :=
  { p with releases := release.settle stamp (setRelease release.version release p.releases) }

/-- The plugin without the releases of a version. -/
def drop (version : String) (p : Plugin) : Plugin :=
  { p with releases := p.releases.filter (·.version ≠ version) }

end Plugin

end PluginRegistry
