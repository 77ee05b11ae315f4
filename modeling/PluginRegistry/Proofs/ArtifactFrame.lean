import PluginRegistry.Proofs.ArtifactRemoval
import PluginRegistry.Proofs.RecordInvariants
import PluginRegistry.Proofs.TextPieces

/-!
# Whose artifacts go with a release

The artifact of a release is removed with it, by a key that is made from id and version. The rules
of the registry keep separators and points out of an id, but a version may be any text, and a
version with separators in it can lead to the artifact of another release or of another plugin. So
which artifacts stay is told by `Artifacts.Disturbs`, for every key. Between versions without
separators it never holds, but for a version that is too long to be the name of a file: there the
ids are steps of their own on the way, and two releases have one path only if they are the same.
-/

namespace PluginRegistry

/-! ## Paths of keys -/

namespace Validator

/-- A canonical id is one component of a path. -/
theorem notMem_of_isCanonicalId {id : String} (h : isCanonicalId id) : '/' ∉ id.toList := by
  rcases isCanonicalId_iff.mp h with hid | ⟨q, hq, rfl⟩
  · exact hid.notMem (by decide) (by decide)
  · rw [String.toList_append, List.mem_append, not_or]
    exact ⟨hq.notMem (by decide) (by decide), by decide⟩

end Validator

namespace Artifacts

variable {root : Path} {t : FileTree} {id other version u : String}

/-- The version has no separator of a path in it. -/
def IsPlain (version : String) : Prop := '/' ∉ version.toList

theorem split_key (hid : Validator.isCanonicalId id) (hversion : IsPlain version) :
    Text.split '/' (key id version) = [id, version ++ ".zip"] := by
  have hfile : '/' ∉ (version ++ ".zip").toList := by
    rw [String.toList_append, List.mem_append, not_or]
    exact ⟨hversion, by decide⟩
  have hkey : (key id version).toList = id.toList ++ '/' :: (version ++ ".zip").toList := by
    simp [key]
  unfold Text.split
  rw [hkey, Text.splitAt_append _ (Validator.notMem_of_isCanonicalId hid),
    Text.splitAt_of_notMem hfile, List.map_cons, List.map_cons, List.map_nil, String.ofList_toList,
    String.ofList_toList]

/-- A name that is not empty and no point or two points is a step down. -/
theorem step_name {name : String} (hempty : name ≠ "") (hpoint : name ≠ ".") (hpoints : name ≠ "..")
    (path : Path) : path.step name = path ++ [name] := by
  rw [Path.step, if_neg (not_or.mpr ⟨hempty, hpoint⟩), if_neg hpoints]

theorem step_file (version : String) (path : Path) :
    path.step (version ++ ".zip") = path ++ [version ++ ".zip"] := by
  have hlength : (version ++ ".zip").length = version.length + 4 := String.length_append _ _
  have hshort : ∀ name : String, name.length ≤ 2 → version ++ ".zip" ≠ name := by
    rintro name hname rfl
    omega
  exact step_name (hshort _ (by decide)) (hshort _ (by decide)) (hshort _ (by decide)) path

/-- The file of a release stands in the directory of its plugin. -/
theorem resolve_key (hid : Validator.isCanonicalId id) (hversion : IsPlain version) :
    root.resolve (key id version) = root ++ [id, version ++ ".zip"] := by
  have hempty : id ≠ "" := by
    rintro rfl
    exact absurd hid (by decide)
  have hstart : (key id version).startsWith "/" = false := by
    rw [String.startsWith_string_eq_false_iff]
    intro hprefix
    have hchars : id.toList ≠ [] := fun hnil => hempty (String.toList_eq_nil_iff.mp hnil)
    obtain ⟨c, rest, hchars⟩ := List.exists_cons_of_ne_nil hchars
    have hkey : (key id version).toList = c :: (rest ++ '/' :: (version ++ ".zip").toList) := by
      simp [key, hchars]
    rw [hkey] at hprefix
    have hc : '/' = c := (List.cons_prefix_cons.mp hprefix).1
    refine Validator.notMem_of_isCanonicalId hid ?_
    rw [hchars, hc]
    exact List.mem_cons_self
  have hpoint : id ≠ "." := by
    rintro rfl
    exact absurd hid (by decide)
  have hpoints : id ≠ ".." := by
    rintro rfl
    exact absurd hid (by decide)
  unfold Path.resolve Path.origin
  rw [split_key hid hversion, hstart]
  show (root.step id).step (version ++ ".zip") = _
  rw [step_name hempty hpoint hpoints, step_file, List.append_assoc]
  rfl

theorem eq_of_pathOf_key {path : Path} (hid : Validator.isCanonicalId id)
    (hversion : IsPlain version) (h : pathOf root (key id version) = .ok path) :
    path = root ++ [id, version ++ ".zip"] := by
  rw [← resolve_key hid hversion]
  exact (pathOf_eq_ok.mp h).2.1.symm

/-- Two releases that do not get in the way of one another. -/
structure Apart (id version other u : String) : Prop where
  /-- They are not the same. -/
  differ : (other, u) ≠ (id, version)
  /-- The first version is plain. -/
  plain : IsPlain version
  /-- The second version is plain. -/
  otherPlain : IsPlain u
  /-- Within one plugin, the second version is not too long for the name of a file. -/
  fits : other = id → Text.octetLength (u ++ ".zip") ≤ FileTree.nameLimit

/-- Between plugins with ids of the registry, one path means one release. -/
theorem Apart.not_disturbs (h : Apart id version other u) (hid : Validator.isCanonicalId id)
    (hother : Validator.isCanonicalId other) :
    ¬Disturbs root t (key id version) (key other u) := by
  intro hdisturbs
  cases hdisturbs with
  | @shared path hfile hpath =>
      have hsame := eq_of_pathOf_key hid h.plain hfile.means
      rw [eq_of_pathOf_key hother h.otherPlain hpath] at hsame
      obtain ⟨hplugin, hrest⟩ := List.cons.inj (List.append_cancel_left hsame)
      have hversion : u = version := by
        have hchars := congrArg String.toList (List.cons.inj hrest).1
        rw [String.toList_append, String.toList_append] at hchars
        exact String.toList_inj.mp (List.append_cancel_right hchars)
      exact h.differ (by rw [hplugin, hversion])
  | @dropped path name rest hfile _ _ hpath hname _ =>
      have hdirectory : path.dropLast = root ++ [id] := by
        rw [eq_of_pathOf_key hid h.plain hfile.means, List.append_cons, List.dropLast_concat]
      have hsame := eq_of_pathOf_key hother h.otherPlain hpath
      rw [hdirectory, List.append_assoc] at hsame
      -- below the directory of the plugin there is only the name of the file
      obtain ⟨hplugin, hrest⟩ := List.cons.inj (List.append_cancel_left hsame)
      have hfits := h.fits hplugin.symm
      rw [← (List.cons.inj hrest).1] at hfits
      exact absurd hfits (Nat.not_le.mpr hname)

end Artifacts

/-! ## Ids of stored plugins -/

/-- Every id in the table is canonical. -/
def World.Canonical {σ : Type} (w : World σ) : Prop :=
  ∀ id row, w.row? id = some row → Validator.isCanonicalId id

/-- What is loaded for a release. -/
def World.loaded (root : Path) (w : World FileTree) (plugin version : String) :
    Except StoreFault (List UInt8) :=
  Artifacts.load root (Artifacts.key plugin version) w.artifacts

namespace Registry

variable {σ : Type}

/-- Where canonical ids are asked for, there are no others. -/
theorem Reached.canonical {r : Registry σ} (hr : Validator.canonicalId ∈ r.validators) {w : World σ}
    (hw : r.Reached w) : w.Canonical := by
  intro id row hrow
  obtain ⟨p, hp⟩ := hw.sound.rows id row hrow
  have hcheck := hw.every (maintains_check hr Validator.isHereditary_canonicalId) id row p hrow hp
  have hid := Validator.canonicalId_check.mp hcheck
  rwa [hp.id, World.id_of_row? hrow] at hid

theorem artifactsWithout_inDirectory {r : Registry FileTree} {root : Path}
    (hstore : r.store = some (Artifacts.inDirectory root)) (id version : String) (t : FileTree) :
    r.artifactsWithout id (.str version) t
      = Artifacts.without root (Artifacts.key id version) t := by
  unfold artifactsWithout
  rw [hstore]
  rfl

/-- **What is loaded stays the same exactly if the removal does not disturb it**, for a release that
is removed alone as for all those of a plugin, one after the other. With the rules of the registry,
this leaves alone what is apart from what is removed. -/
theorem loaded_after_removal {root : Path} {r : Registry FileTree}
    (hstore : r.store = some (Artifacts.inDirectory root)) (hrules : r.validators = Validator.all)
    {w : World FileTree} (hw : r.Reached w) (now : CivilTime) {id : String} {p : Plugin}
    (hp : w.plugin? id = some p) (user : Option String) :
    (∀ version, ∃ answer w', (r.deleteRelease now id version user).start w = (.ok answer, w') ∧
      ∀ other u,
        (w'.loaded root other u = w.loaded root other u ↔
          ¬Artifacts.Disturbs root w.artifacts (Artifacts.key id version) (Artifacts.key other u)) ∧
        ((w.plugin? other).isSome → Artifacts.Apart id version other u →
          w'.loaded root other u = w.loaded root other u)) ∧
    ∃ w', (r.delete now id user).start w = (.ok (), w') ∧
      ∀ other u,
        (w'.loaded root other u = w.loaded root other u ↔
          ¬Artifacts.DisturbInTurn root (p.versions.map (Artifacts.key id)) w.artifacts
            (Artifacts.key other u)) ∧
        ((w.plugin? other).isSome → (∀ version ∈ p.versions, Artifacts.Apart id version other u) →
          w'.loaded root other u = w.loaded root other u) := by
  have hs := hw.sound
  have hrule : Validator.canonicalId ∈ r.validators := by
    rw [hrules]
    simp [Validator.all, Validator.builtIn]
  obtain ⟨row, stored, hrow, hstored, rfl⟩ := hs.row_of_plugin? hp
  -- both ids have to be canonical for a path to tell them apart
  have happart : ∀ version other u t, (w.plugin? other).isSome →
      Artifacts.Apart id version other u →
        ¬Artifacts.Disturbs root t (Artifacts.key id version) (Artifacts.key other u) := by
    intro version other u t hother hapart
    obtain ⟨found, hfound⟩ := Option.isSome_iff_exists.mp hother
    obtain ⟨otherRow, _, hotherRow, _⟩ := hs.row_of_plugin? hfound
    exact hapart.not_disturbs (hw.canonical hrule id row hrow)
      (hw.canonical hrule other otherRow hotherRow)
  refine ⟨fun version => ?_, ?_⟩
  · obtain ⟨answer, w', hstart⟩ := deleteRelease_of_row r now version user hs hrow
    obtain ⟨_, _, _, _, _, hartifacts⟩ :=
      dropReleases_eq_ok hs (fun p hp => hp.drop version) (fun _ => rfl) hstart
    rw [artifactsWithout_inDirectory hstore] at hartifacts
    refine ⟨answer, w', hstart, fun other u => ⟨?_, fun hother hapart => ?_⟩⟩
    · unfold World.loaded
      rw [hartifacts]
      exact Artifacts.load_without_iff
    · unfold World.loaded
      rw [hartifacts]
      exact Artifacts.load_without_of_not_disturbs (happart version other u _ hother hapart)
  · obtain ⟨w', hstart, _, _, _, hremoved⟩ :=
      delete_start r now user hs (hs.textFault?_of_row hrow)
    have hartifacts : w'.artifacts = Artifacts.withoutAll root
        ((stored.timed row).versions.map (Artifacts.key id)) w.artifacts := by
      rw [hremoved row stored hrow hstored, Artifacts.withoutAll, Plugin.versions, List.map_map,
        List.foldl_map]
      simp only [artifactsWithout_inDirectory hstore, Function.comp_apply]
      rfl
    refine ⟨w', hstart, fun other u => ⟨?_, fun hother hapart => ?_⟩⟩
    · unfold World.loaded
      rw [hartifacts]
      exact Artifacts.load_withoutAll_iff
    · unfold World.loaded
      rw [hartifacts]
      refine Artifacts.load_withoutAll_iff.mpr ?_
      rintro ⟨before, key, after, hkeys, hdisturbs⟩
      have hkey : key ∈ (stored.timed row).versions.map (Artifacts.key id) := by
        rw [hkeys]
        simp
      obtain ⟨version, hversion, rfl⟩ := List.mem_map.mp hkey
      exact happart version other u _ hother (hapart version hversion) hdisturbs

/-- A registry with all rules that keeps its artifacts in a directory. -/
def guarded : Registry FileTree :=
  { plain (some (Artifacts.inDirectory ["r"])) with validators := Validator.all }

/-- Two plugins, the first with a version that leads to the artifact of the second. -/
def neighbours : World FileTree :=
  { guarded.run
      [⟨default, .upsert (.bare "acme.a" [.bare "../acme.b/1.0.0" false])⟩,
        ⟨default, .upsert (.bare "acme.b" [.bare "1.0.0" false])⟩] (.blank ⟨[]⟩) with
    artifacts := ⟨[(["r"], .directory), (["r", "acme.b"], .directory),
      (["r", "acme.b", "1.0.0.zip"], .file [80, 75])]⟩ }

/-- Removing the release, or the plugin that has it, takes the artifact of the other plugin away. -/
theorem loaded_after_removal_neighbours :
    (neighbours.plugin? "acme.b").map Plugin.versions = some ["1.0.0"] ∧
    neighbours.loaded ["r"] "acme.b" "1.0.0" = .ok [80, 75] ∧
    (∃ answer w', (guarded.deleteRelease default "acme.a" "../acme.b/1.0.0" none).start neighbours
        = (.ok answer, w') ∧
      w'.loaded ["r"] "acme.b" "1.0.0" ≠ neighbours.loaded ["r"] "acme.b" "1.0.0") ∧
    ∃ w', (guarded.delete default "acme.a" none).start neighbours = (.ok (), w') ∧
      w'.loaded ["r"] "acme.b" "1.0.0" ≠ neighbours.loaded ["r"] "acme.b" "1.0.0" := by
  have hreached : guarded.Reached neighbours := by
    refine .stored _ (Reached.run (.empty ⟨rfl, rfl⟩) ?_)
    decide
  have hstored : (neighbours.plugin? "acme.a").map Plugin.versions = some ["../acme.b/1.0.0"] := by
    decide +kernel
  obtain ⟨p, hp, hversions⟩ := Option.map_eq_some_iff.mp hstored
  obtain ⟨hrelease, w', hdelete, hall⟩ := loaded_after_removal rfl rfl hreached default hp none
  have hpath : Artifacts.pathOf ["r"] (Artifacts.key "acme.b" "1.0.0")
      = .ok ["r", "acme.b", "1.0.0.zip"] :=
    Artifacts.pathOf_eq_ok.mpr (by decide +kernel)
  have hclimb : Artifacts.pathOf ["r"] (Artifacts.key "acme.a" "../acme.b/1.0.0")
      = .ok ["r", "acme.b", "1.0.0.zip"] :=
    Artifacts.pathOf_eq_ok.mpr (by decide +kernel)
  have hshared : Artifacts.Disturbs ["r"] neighbours.artifacts
      (Artifacts.key "acme.a" "../acme.b/1.0.0") (Artifacts.key "acme.b" "1.0.0") :=
    .shared ⟨hclimb, [80, 75], rfl⟩ hpath
  refine ⟨by decide +kernel, Artifacts.load_of_pathOf hpath, ?_, w', hdelete, fun hsame => ?_⟩
  · obtain ⟨answer, w', hstart, hloaded⟩ := hrelease "../acme.b/1.0.0"
    exact ⟨answer, w', hstart, fun hsame => (hloaded "acme.b" "1.0.0").1.mp hsame hshared⟩
  · refine (hall "acme.b" "1.0.0").1.mp hsame ⟨[], _, [], ?_, hshared⟩
    rw [hversions]
    rfl

end Registry

end PluginRegistry
