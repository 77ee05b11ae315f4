import PluginRegistry.CommandLine.Run
import PluginRegistry.Proofs.ArchiveRoundTrip
import PluginRegistry.Proofs.ArtifactMap
import PluginRegistry.Proofs.OperationSteps

/-!
# States that are kept in files

A run works on files: the table is in that of the database, and the artifacts are in others.
`Workplace.Keeps` says that the files keep a state of the registry. It holds when the database has
been opened, and it holds again when the table has been put back, whatever was done in between. That
rests on two facts about operations on records: they take files away, at most, and they leave a
table alone that must not be written, so that there is nothing to put back.
-/

namespace PluginRegistry

/-! ## Files -/

/-- The content of the file at each path, if there is one. -/
abbrev FileTree.files (t : FileTree) : Path → Option (List UInt8) := Artifacts.contents [] t

namespace FileTree

theorem ne_nil_of_node? {t : FileTree} {path : Path} (h : t.node? path ≠ some .directory) :
    path ≠ [] := by
  rintro rfl
  exact h rfl

theorem files_put (t : FileTree) {path : Path} (hpath : path ≠ []) (content : List UInt8) :
    (t.put path (.file content)).files = Function.update t.files path (some content) :=
  Artifacts.contents_put hpath (.file content)

/-- A directory is made where there was nothing. -/
theorem files_ensureDirectory (path : Path) (t : FileTree) :
    (t.ensureDirectory path).1.files = t.files := by
  unfold ensureDirectory makeDirectory
  cases t.reachParent path with
  | error cause => rfl
  | ok u =>
      dsimp only
      cases hnode : t.node? path with
      | some node => rfl
      | none =>
          have hpath : path ≠ [] := ne_nil_of_node? (by rw [hnode]; nofun)
          have hnone : t.files path = none := by
            show Artifacts.contents [] t path = none
            unfold Artifacts.contents
            rw [List.nil_append, hnode]
          refine (Artifacts.contents_put hpath .directory).trans ?_
          dsimp only
          rw [← hnone]
          exact Function.update_eq_self path _

theorem files_ensureUpwards (up : List String) (t : FileTree) :
    (ensureUpwards up t).1.files = t.files := by
  induction up generalizing t with
  | nil => rfl
  | cons name up ih =>
      have hfirst := files_ensureDirectory (name :: up).reverse t
      rcases ensureUpwards_cases name up t with he | ⟨t₁, t₂, rfl, rfl, he | he⟩
      · rw [he, hfirst]
      · rw [he, ih, hfirst]
      · rw [he, files_ensureDirectory, ih, hfirst]

theorem files_erase (path q : Path) (t : FileTree) :
    (t.erase path).files q = t.files q ∨ (t.erase path).files q = none := by
  by_cases hpath : path = []
  · subst hpath
    by_cases hq : q = []
    · subst hq
      exact .inl rfl
    · refine .inl ?_
      show Artifacts.contents [] (t.erase []) q = Artifacts.contents [] t q
      unfold Artifacts.contents
      rw [List.nil_append, node?_erase hq]
  · rw [show (t.erase path).files = _ from Artifacts.contents_erase hpath]
    by_cases hq : q = path
    · exact .inr (hq ▸ Function.update_self _ _ _)
    · exact .inl (Function.update_of_ne hq _ _)

end FileTree

namespace Artifacts

theorem files_makeRoot (directory : Path) (text : String) (t : FileTree) :
    (makeRoot directory text t).1.files = t.files := by
  have hmade := FileTree.files_ensureUpwards (directory.resolve text).reverse t
  unfold makeRoot FileTree.ensureDirectories
  split
  · rfl
  · dsimp only
    generalize FileTree.ensureUpwards (directory.resolve text).reverse t = made at hmade ⊢
    obtain ⟨t', fault | u⟩ := made
    · exact hmade
    · exact hmade

theorem root_of_makeRoot {directory root : Path} {text : String} {t t' : FileTree}
    (h : makeRoot directory text t = (t', .ok root)) : root = directory.resolve text := by
  unfold makeRoot at h
  split at h
  · cases h
  · dsimp only at h
    split at h
    · cases h
      rfl
    · cases h

/-- The attempt to remove an artifact takes files away, at most. -/
theorem files_delete (root : Path) (key : String) (t : FileTree) (q : Path) :
    (delete root key t).2.1.files q = t.files q ∨ (delete root key t).2.1.files q = none := by
  cases hpath : pathOf root key with
  | error fault =>
      unfold delete
      rw [hpath]
      exact .inl rfl
  | ok path =>
      rcases delete_cases (t := t) hpath with ⟨_, _, he⟩ | ⟨_, _, he⟩ | ⟨_, he⟩
      · rw [he]
        unfold dropParent
        split
        · rcases FileTree.files_erase path.dropLast q (t.erase path) with h | h
          · rw [h]
            exact FileTree.files_erase path q t
          · exact .inr h
        · exact FileTree.files_erase path q t
      · exact .inl (by rw [he])
      · exact .inl (by rw [he])

end Artifacts

/-- No file but those that are there is there afterwards, and none has changed. -/
def World.Thins (w w' : World FileTree) : Prop :=
  ∀ path, w'.artifacts.files path = w.artifacts.files path ∨ w'.artifacts.files path = none

theorem World.Thins.of_same {w w' : World FileTree} (h : w'.artifacts = w.artifacts) :
    w.Thins w' := fun path => .inl (by rw [h])

/-- Operations on records take files away, at most. -/
theorem Registry.keepsUp_thins {r : Registry FileTree} {root? : Option Path}
    (hstore : r.store = root?.map Artifacts.inDirectory) : r.KeepsUp World.Thins where
  trans h h' := fun path => by
    rcases h' path with h' | h'
    · rw [h']
      exact h path
    · exact .inr h'
  kept h := .of_same h.artifacts
  note _ _ w := .of_same rfl
  insert now id p w := .of_same ((Catalog.insert_calm_and_atomic _ now id p).1 w).artifacts
  update now id p w := .of_same ((Catalog.update_calm_and_atomic _ now id p).1 w).artifacts
  delete id w := .of_same ((Catalog.delete_calm_and_atomic _ id).1 w).artifacts
  artifact id version w := by
    have hleft := (deleteArtifact_start r id version w).2
    unfold artifactsWithout at hleft
    rw [hstore] at hleft
    cases root? with
    | none => exact .of_same hleft
    | some root =>
        intro path
        rw [hleft]
        exact Artifacts.files_delete root _ _ path

/-! ## The files of a workplace -/

namespace CommandLine

variable {w w' : Workplace} {file? : Option Path} {world world' : World FileTree}

/-- The file that a database is kept in, unless it is in memory. -/
def Workplace.fileOf? (w : Workplace) : DatabasePlace → Option Path
  | .memory => none
  | .file text _ => w.locate? text

/-- The table in the file at a path: an empty one where there is no file, and none where there is
something else in it. -/
def Workplace.tableAt (w : Workplace) (path : Path) : Option Table :=
  match w.tree.files path with
  | some content => Table.ofOctets? content
  | none => some .empty

theorem Workplace.tableAt_congr {path : Path} (h : w'.tree.files path = w.tree.files path) :
    w'.tableAt path = w.tableAt path := by
  unfold tableAt
  rw [h]

/-- The files keep the state, with the table in one of them. -/
structure Workplace.Keeps (w : Workplace) (file? : Option Path) (world : World FileTree) :
    Prop where
  /-- The table is that in its file, as long as that stands. -/
  table : ∀ path ∈ file?, world.artifacts.files path ≠ none → w.tableAt path = world.table
  /-- Its file is not there if it does not stand. -/
  gone : ∀ path ∈ file?, world.artifacts.files path = none → w.tree.files path = none
  /-- All other files are those of the state. -/
  others : ∀ path, some path ≠ file? → w.tree.files path = world.artifacts.files path

/-- The files are the same, but for the one of a table, which holds the same table. -/
structure Workplace.Same (w : Workplace) (file? : Option Path) (w' : Workplace) : Prop where
  /-- The table is the same, in a file that is the same or that can be read both times. -/
  table : ∀ path ∈ file?, w'.tree.files path = w.tree.files path ∨
    ∃ t, w.tableAt path = some t ∧ w'.tableAt path = some t
  /-- All other files are the same. -/
  others : ∀ path, some path ≠ file? → w'.tree.files path = w.tree.files path

theorem Workplace.Same.refl (w : Workplace) (file? : Option Path) : w.Same file? w :=
  ⟨fun _ _ => .inl rfl, fun _ _ => rfl⟩

/-- The table in the one file is the same in any case. -/
theorem Workplace.Same.tableAt (h : w.Same file? w') {path : Path} (hpath : path ∈ file?) :
    w'.tableAt path = w.tableAt path := by
  rcases h.table path hpath with hsame | ⟨t, ht, ht'⟩
  · exact tableAt_congr hsame
  · rw [ht, ht']

theorem Workplace.tableAt_of_gone {path : Path} (h : w.tree.files path = none) :
    w.tableAt path = some .empty := by
  unfold tableAt
  rw [h]

theorem Workplace.tableAt_of_file {path : Path} {content : List UInt8}
    (h : w.tree.files path = some content) : w.tableAt path = Table.ofOctets? content := by
  unfold tableAt
  rw [h]

/-- It is the table and the files of a state that count. -/
theorem Workplace.Keeps.congr (h : w.Keeps file? world) (htable : world'.table = world.table)
    (hfiles : world'.artifacts.files = world.artifacts.files) : w.Keeps file? world' where
  table path hpath hfile := by
    rw [htable]
    exact h.table path hpath (hfiles ▸ hfile)
  gone path hpath hfile := h.gone path hpath (hfiles ▸ hfile)
  others path hpath := (h.others path hpath).trans (congrFun hfiles path).symm

/-- Workplaces that keep one state are the same. -/
theorem Workplace.Keeps.same (h : w.Keeps file? world) (h' : w'.Keeps file? world)
    (htable : world.table ≠ none) : w.Same file? w' where
  table path hpath := by
    by_cases hfile : world.artifacts.files path = none
    · exact .inl ((h'.gone path hpath hfile).trans (h.gone path hpath hfile).symm)
    · obtain ⟨t, ht⟩ := Option.ne_none_iff_exists'.mp htable
      exact .inr ⟨t, (h.table path hpath hfile).trans ht, (h'.table path hpath hfile).trans ht⟩
  others path hpath := (h'.others path hpath).trans (h.others path hpath).symm

/-! ## Opening a database -/

/-- The database is the one at the place. -/
structure Database.Opened (d : Database) (w : Workplace) (place : DatabasePlace) : Prop where
  /-- One in memory is empty. -/
  memory : w.fileOf? place = none → d.table = .empty ∧ d.path = none
  /-- One in a file has the table in it. -/
  file : ∀ path ∈ w.fileOf? place, path ≠ [] ∧ w.tableAt path = some d.table
  /-- It is put back there, unless it must not be written. -/
  path : ∀ path ∈ w.fileOf? place,
    d.path = some path ∨ d.path = none ∧ d.readOnly = true ∧ w.tree.files path ≠ none

theorem Workplace.openDatabase_eq_ok {place : DatabasePlace} {d : Database}
    (h : w.openDatabase place = .ok d) : d.Opened w place := by
  cases place with
  | memory =>
      cases h
      exact ⟨fun _ => ⟨rfl, rfl⟩, nofun, nofun⟩
  | file text access =>
      unfold openDatabase at h
      dsimp only at h
      cases hpath : w.locate? text with
      | none =>
          rw [hpath] at h
          cases h
      | some path =>
          rw [hpath] at h
          have hfile? : w.fileOf? (.file text access) = some path := hpath
          -- it is enough to look at this path
          suffices hone : path ≠ [] ∧ w.tableAt path = some d.table ∧ (d.path = some path ∨
              d.path = none ∧ d.readOnly = true ∧ w.tree.files path ≠ none) by
            refine ⟨fun hnone => ?_, fun other hother => ?_, fun other hother => ?_⟩
            · cases hfile?.symm.trans hnone
            · cases hfile?.symm.trans hother
              exact ⟨hone.1, hone.2.1⟩
            · cases hfile?.symm.trans hother
              exact hone.2.2
          dsimp only at h
          split at h
          · cases h
          · cases h
          · rename_i hnode
            split at h
            · cases h
              have hnone : w.tree.files path = none := by
                show Artifacts.contents [] w.tree path = none
                unfold Artifacts.contents
                rw [List.nil_append, hnode]
              exact ⟨FileTree.ne_nil_of_node? (by rw [hnode]; nofun), tableAt_of_gone hnone,
                .inl rfl⟩
            · cases h
          · rename_i content _ hnode
            have hnil : path ≠ [] := FileTree.ne_nil_of_node? (by rw [hnode]; nofun)
            have hfile : w.tree.files path = some content := Artifacts.contents_eq_some.mpr hnode
            have htable := tableAt_of_file hfile
            split at h
            · rename_i table hcontent
              rw [hcontent] at htable
              split at h
              · cases h
                exact ⟨hnil, htable, .inl rfl⟩
              · split at h
                · cases h
                · cases h
                  exact ⟨hnil, htable, .inr ⟨rfl, rfl, by rw [hfile]; nofun⟩⟩
            · cases h

/-- A database that was opened is kept in the files. -/
theorem Database.Opened.keeps {d : Database} {place : DatabasePlace} (h : d.Opened w place)
    (htable : world.table = some d.table)
    (hfiles : world.artifacts.files = (w.keep d.path d.table).tree.files) :
    w.Keeps (w.fileOf? place) world := by
  cases hfile? : w.fileOf? place with
  | none =>
      rw [(h.memory hfile?).2] at hfiles
      exact ⟨nofun, nofun, fun path _ => (congrFun hfiles path).symm⟩
  | some path =>
      obtain ⟨hnil, htableAt⟩ := h.file path hfile?
      rcases h.path path hfile? with hpath | ⟨hpath, _, hfile⟩
      · rw [hpath] at hfiles
        have hput := hfiles.trans (FileTree.files_put w.tree hnil _)
        refine ⟨fun other hother _ => ?_, fun other hother hnone => ?_, fun other hother => ?_⟩
        · cases hother
          rw [htableAt, htable]
        · cases hother
          rw [hput, Function.update_self] at hnone
          cases hnone
        · rw [hput, Function.update_of_ne fun he => hother (congrArg some he)]
      · rw [hpath] at hfiles
        refine ⟨fun other hother _ => ?_, fun other _ hnone => ?_, fun other _ => ?_⟩
        · cases hother
          rw [htableAt, htable]
        · rw [← hnone, hfiles]
          rfl
        · rw [hfiles]
          rfl

/-- The file of a database that was opened stands. -/
theorem Database.Opened.stands {d : Database} {place : DatabasePlace} (h : d.Opened w place)
    {path : Path} (hpath : path ∈ w.fileOf? place) :
    (w.keep d.path d.table).tree.files path ≠ none := by
  rcases h.path path hpath with hput | ⟨hnone, _, hfile⟩
  · rw [hput]
    have hkept := FileTree.files_put w.tree (h.file path hpath).1 d.table.octets
    rw [show (w.keep (some path) d.table).tree.files = _ from hkept, Function.update_self]
    nofun
  · rw [hnone]
    exact hfile

/-- A table that was put back is kept in the files. One that must not be written is there still. -/
theorem Database.Opened.keeps_refresh {d : Database} {place : DatabasePlace} (h : d.Opened w place)
    (htable : world.table ≠ none) (hguarded : d.readOnly = true → world.table = some d.table)
    (hthin : d.path = none → ∀ path, world.artifacts.files path = w.tree.files path ∨
      world.artifacts.files path = none) :
    ({ w with tree := world.artifacts }.refresh d.path (world.table.getD .empty)).Keeps
      (w.fileOf? place) world := by
  obtain ⟨t, ht⟩ := Option.ne_none_iff_exists'.mp htable
  cases hfile? : w.fileOf? place with
  | none =>
      rw [(h.memory hfile?).2]
      exact ⟨nofun, nofun, fun _ _ => rfl⟩
  | some path =>
      obtain ⟨hnil, htableAt⟩ := h.file path hfile?
      rcases h.path path hfile? with hpath | ⟨hpath, hreadOnly, _⟩
      · rw [hpath, ht]
        unfold Workplace.refresh
        rw [Option.bind_some]
        split
        · rename_i content hnode
          have hfile : world.artifacts.files path = some content :=
            Artifacts.contents_eq_some.mpr hnode
          have hput := FileTree.files_put world.artifacts hnil t.octets
          refine ⟨fun other hother _ => ?_, fun other hother hnone => ?_, fun other hother => ?_⟩
          · cases hother
            have hkept := (congrFun hput path).trans (Function.update_self _ _ _)
            rw [ht]
            exact (Workplace.tableAt_of_file hkept).trans (Table.ofOctets?_octets t)
          · cases hother
            cases hnone.symm.trans hfile
          · exact (congrFun hput other).trans
              (Function.update_of_ne (fun he => hother (congrArg some he)) _ _)
        · rename_i hnode
          have hnone : world.artifacts.files path = none := by
            rw [Option.eq_none_iff_forall_ne_some]
            exact fun content hcontent => hnode content (Artifacts.contents_eq_some.mp hcontent)
          refine ⟨fun other hother hfile => ?_, fun other _ hfile => hfile, fun _ _ => rfl⟩
          cases hother
          exact absurd hnone hfile
      · rw [hpath]
        refine ⟨fun other hother hfile => ?_, fun other _ hfile => hfile, fun _ _ => rfl⟩
        cases hother
        have hsame := (hthin hpath path).resolve_right hfile
        rw [hguarded hreadOnly, ← htableAt]
        exact Workplace.tableAt_congr hsame

end CommandLine

end PluginRegistry
