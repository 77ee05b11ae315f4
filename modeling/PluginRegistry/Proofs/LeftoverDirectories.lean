import PluginRegistry.Proofs.ArtifactMap
import PluginRegistry.Proofs.DirectoryMaking

/-!
# Directories that are left over

A directory below the root is there for the artifacts in it. Removing an artifact takes its
directory away once that is empty, but none of those above it; and to store one makes all the
directories on the way before the file itself can turn out to be impossible. So a directory without
any artifact beneath it can be left over in two ways, told by `Artifacts.Strands`: the last artifact
beneath a directory was removed from a deeper one, or the first missing directory of a path was made
and the rest of the path is too long. Where the file of a release stands in the directory of its
plugin, neither can happen, as long as its name and its path are not too long.
-/

namespace PluginRegistry

namespace FileTree

variable {root directory path place way rest : Path} {name : String} {t t' : FileTree}

/-- **Every directory below the root has a file beneath it.** -/
def Occupied (root : Path) (t : FileTree) : Prop :=
  ∀ directory, root.isBelow directory → t.node? directory = some .directory →
    ∃ place content, directory.isBelow place ∧ t.node? place = some (.file content)

theorem Occupied.of_empty (h : t.isEmptyBelow root) : Occupied root t := by
  intro directory hbelow hnode
  rw [node?_of_isEmptyBelow h hbelow] at hnode
  cases hnode

/-- A file stays a file while directories are made. -/
theorem Made.file_iff (h : Made root t t') (hplace : root.isBelow place) (content : List UInt8) :
    t'.node? place = some (.file content) ↔ t.node? place = some (.file content) := by
  obtain ⟨way, _, rfl⟩ := Path.isBelow_iff.mp hplace
  rw [← Artifacts.contents_eq_some, ← Artifacts.contents_eq_some, Artifacts.contents_made h]

/-- What is taken away is no file afterwards, and every other file is. -/
theorem file_erase_iff {content : List UInt8} :
    (t.erase path).node? place = some (.file content) ↔
      place ≠ path ∧ t.node? place = some (.file content) := by
  by_cases hplace : place = path
  · subst hplace
    by_cases hnil : place = []
    · simp [hnil, node?]
    · simp [node?_erase_self hnil]
  · simp [node?_erase hplace, hplace]

/-- Where the way breaks off there is nothing further down. -/
theorem Breaks.empty_below (h : t.Breaks way name) (ht : Tidy root t)
    (hbelow : root.isBelow (way ++ [name])) (place : Path) (hplace : (way ++ [name]).isBelow place) :
    t.node? place = none :=
  ht.empty_below hbelow (by simp [h.missing]) place hplace

/-- What is missing on the way to something below the root is itself below the root. -/
theorem Breaks.isBelow (h : t.Breaks way name) (hroot : t.hasDirectory root)
    (hpath : root.isBelow (way ++ name :: rest)) : root.isBelow (way ++ [name]) := by
  obtain ⟨down, _, hdown⟩ := Path.isBelow_iff.mp hpath
  have hprefix : way ++ [name] <+: root ++ down := by
    rw [← hdown, List.append_cons way name rest]
    exact List.prefix_append _ _
  rcases List.prefix_or_prefix_of_prefix hprefix (List.prefix_append root down) with hup | hbelow
  · -- on the way to the root nothing is missing
    obtain ⟨more, rfl⟩ := hup
    have hwalk := (hasDirectory_iff.mp hroot).2
    rw [List.append_assoc, List.singleton_append, h.walk] at hwalk
    cases hwalk
  · refine Path.isBelow_of_prefix_ne hbelow ?_
    rintro rfl
    have hnode := node?_of_walk (hasDirectory_iff.mp hroot).2
    rw [List.nil_append, h.missing] at hnode
    cases hnode

end FileTree

namespace Artifacts

open FileTree

variable {root path : Path} {t t' : FileTree} {key : String} {content : List UInt8}

/-- **The artifact cannot be stored at the path, but a directory on the way is made.** The way
breaks off before the directory of the artifact, and further on a name is too long, or the whole
path. -/
structure StopsShort (t : FileTree) (path way : Path) (name : String) (rest : Path) : Prop where
  /-- The path leads on from what is missing. -/
  split : path = way ++ name :: rest
  /-- What is missing is a directory. -/
  inner : rest ≠ []
  /-- The way is there up to it. -/
  breaks : t.Breaks way name
  /-- The directory of the artifact is not too long as a path. -/
  fits : Text.octetLength (Path.text path.dropLast) ≤ pathLimit
  /-- The artifact is, or there is a name too long for it to be reached. -/
  stops : pathLimit < Text.octetLength path.text ∨
    ∃ other ∈ rest, nameLimit < Text.octetLength other

/-- **The access leaves a directory without artifacts.** -/
inductive Strands (root : Path) (t : FileTree) : Access → Prop
  /-- To store an artifact fails, but not before a directory was made. -/
  | store {key : String} {content : List UInt8} {path way rest : Path} {name : String}
    (hpath : pathOf root key = .ok path) (hstops : StopsShort t path way name rest) :
    Strands root t (.store key content)
  /-- The last artifact beneath a directory is removed from a directory further down. -/
  | delete {key : String} {path : Path} (hfile : HasFile root t key path)
    (habove : root.isBelow path.dropLast.dropLast)
    (hlast : ∀ place content, Path.isBelow path.dropLast.dropLast place →
      t.node? place = some (.file content) → place = path) :
    Strands root t (.delete key)

/-! ## Storing -/

theorem concat_of_pathOf (hpath : pathOf root key = .ok path) :
    ∃ parent last, path = parent ++ [last] :=
  ⟨_, _, (List.dropLast_concat_getLast (ne_nil_of_pathOf hpath)).symm⟩

/-- What is stored stands where a file can stand. -/
theorem limits_of_store (hroot : t.hasDirectory root) (hpath : pathOf root key = .ok path)
    (hok : (store root key content t).1 = .ok ()) :
    Text.octetLength path.text ≤ pathLimit ∧
      ∀ name ∈ path, Text.octetLength name ≤ nameLimit := by
  obtain ⟨_, ⟨_, _, hreach, _⟩ | ⟨⟨fault, hfault⟩, _⟩⟩ := store_cases hroot hpath content
  · obtain ⟨hlength, hwalk, hname⟩ := reachParent_eq_ok hreach
    refine ⟨hlength, fun name hmem => ?_⟩
    obtain ⟨parent, last, rfl⟩ := concat_of_pathOf hpath
    rw [List.dropLast_concat] at hwalk
    rw [List.getLast?_concat] at hname
    rcases List.mem_append.mp hmem with hmem | hmem
    · exact names_of_walk hwalk name hmem
    · rw [List.mem_singleton.mp hmem]
      exact hname
  · cases hok.symm.trans hfault

/-- Once all directories are there, the artifact is stored if it fits and is no directory. -/
theorem store_of_directories {parent : Path} {last : String}
    (hpath : pathOf root key = .ok (parent ++ [last]))
    (hdirectories : (t.ensureDirectories parent).2 = .ok ())
    (hlength : Text.octetLength (parent ++ [last]).text ≤ pathLimit)
    (hname : Text.octetLength last ≤ nameLimit)
    (hfree : (prepared (parent ++ [last]) t).node? (parent ++ [last]) = none)
    (content : List UInt8) : (store root key content t).1 = .ok () := by
  unfold prepared at hfree
  unfold store
  rw [hpath]
  dsimp only
  rw [List.dropLast_concat] at hfree ⊢
  rcases hensure : t.ensureDirectories parent with ⟨t₁, fault | _⟩
  · rw [hensure] at hdirectories
    cases hdirectories
  · rw [hensure] at hfree
    have hthere := hasDirectory_of_ensureUpwards hensure
    rw [List.reverse_reverse] at hthere
    have hreach := reachParent_of_walk hlength (hasDirectory_iff.mp hthere).2 hname
    dsimp only at hfree ⊢
    unfold FileTree.write
    rw [hreach, hfree]

variable {way rest : Path} {name : String}

theorem StopsShort.store_fails (hroot : t.hasDirectory root) (hpath : pathOf root key = .ok path)
    (h : StopsShort t path way name rest) (content : List UInt8) :
    ∃ fault, (store root key content t).1 = .error fault := by
  cases hstore : (store root key content t).1 with
  | error fault => exact ⟨fault, rfl⟩
  | ok _ =>
      obtain ⟨hlength, hnames⟩ := limits_of_store hroot hpath hstore
      rcases h.stops with hlong | ⟨other, hother, hlong⟩
      · exact absurd hlong (Nat.not_lt.mpr hlength)
      · refine absurd hlong (Nat.not_lt.mpr (hnames other ?_))
        rw [h.split]
        exact List.mem_append_right _ (List.mem_cons_of_mem _ hother)

theorem StopsShort.isBelow (h : StopsShort t path way name rest) (hroot : t.hasDirectory root)
    (hpath : pathOf root key = .ok path) : root.isBelow (way ++ [name]) :=
  h.breaks.isBelow hroot (h.split ▸ isBelow_of_pathOf hpath)

/-- A directory was made, though nothing was stored. -/
theorem StopsShort.made (ht : Tidy root t) (hpath : pathOf root key = .ok path)
    (h : StopsShort t path way name rest) :
    (prepared path t).node? (way ++ [name]) = some .directory := by
  have hparent : path.dropLast = way ++ name :: rest.dropLast := by
    rw [h.split, List.dropLast_append_of_ne_nil (List.cons_ne_nil _ _),
      List.dropLast_cons_of_ne_nil h.inner]
  have hfits := h.fits
  have hnone := h.breaks.empty_below ht (h.isBelow ht.based hpath)
  unfold prepared
  rw [hparent] at hfits ⊢
  exact (h.breaks.made hnone hfits).1

/-- If a directory was made, though nothing was stored, it is by stopping short. -/
theorem stopsShort_of_changed (ht : Tidy root t) (hpath : pathOf root key = .ok path)
    {fault : StoreFault} (hfault : (store root key content t).1 = .error fault)
    (hchanged : prepared path t ≠ t) : ∃ way name rest, StopsShort t path way name rest := by
  obtain ⟨parent, last, rfl⟩ := concat_of_pathOf hpath
  have hdirectories : (t.ensureDirectories parent).1 ≠ t := by
    unfold prepared at hchanged
    rwa [List.dropLast_concat] at hchanged
  have hnil : parent ≠ [] := by
    rintro rfl
    exact hdirectories rfl
  obtain ⟨hlength, way, name, rest, rfl, hbreaks⟩ := breaks_of_changed hnil hdirectories
  have hsplit : way ++ name :: rest ++ [last] = way ++ name :: (rest ++ [last]) := by simp
  have hbelow := isBelow_of_pathOf hpath
  have hnone : ∀ place, (way ++ [name]).isBelow place → t.node? place = none :=
    hbreaks.empty_below ht (hbreaks.isBelow ht.based (hsplit ▸ hbelow))
  refine ⟨way, name, rest ++ [last], hsplit, by simp, hbreaks, ?_, ?_⟩
  · rw [List.dropLast_concat]
    exact hlength
  · -- if neither the path nor a name were too long, it would have been stored
    by_contra hshort
    rw [not_or, not_exists] at hshort
    have hnames : ∀ other ∈ rest ++ [last], Text.octetLength other ≤ nameLimit := fun other hother =>
      Nat.le_of_not_lt fun hlong => hshort.2 other ⟨hother, hlong⟩
    have hmade := (hbreaks.made hnone hlength).2 fun other hother =>
      hnames other (List.mem_append_left _ hother)
    have hfree : (prepared (way ++ name :: rest ++ [last]) t).node? (way ++ name :: rest ++ [last])
        = none := by
      unfold prepared ensureDirectories
      rw [List.dropLast_concat, node?_ensureUpwards]
      · exact hnone _ (Path.isBelow_iff.mpr ⟨rest ++ [last], by simp, by simp⟩)
      · intro hprefix
        have := hprefix.length_le
        simp only [List.length_append, List.length_reverse, List.length_cons,
          List.length_nil] at this
        omega
    have hstored := store_of_directories hpath hmade (Nat.le_of_not_lt hshort.1)
      (hnames last (by simp)) hfree content
    cases hstored.symm.trans hfault

/-- An artifact that was stored is beneath every directory that was made for it. -/
theorem occupied_of_stored (ht : Tidy root t) (h : Occupied root t)
    (hpath : pathOf root key = .ok path) (hok : (store root key content t).1 = .ok ()) :
    Occupied root (store root key content t).2.1 := by
  obtain ⟨hmade, ⟨_, he, _⟩ | ⟨⟨fault, hfault⟩, _⟩⟩ := store_cases ht.based hpath content
  · rw [he]
    intro directory hbelow hnode
    have hnil := ne_nil_of_pathOf hpath
    have hother : directory ≠ path := by
      rintro rfl
      rw [node?_put hnil, if_pos rfl] at hnode
      cases hnode
    by_cases hprefix : directory <+: path
    · refine ⟨path, content, Path.isBelow_of_prefix_ne hprefix hother, ?_⟩
      rw [node?_put hnil, if_pos rfl]
    · -- the directory is none of those that were made
      have hbefore : t.node? directory = some .directory := by
        rw [node?_put hnil, if_neg hother] at hnode
        unfold prepared ensureDirectories at hnode
        rwa [node?_ensureUpwards] at hnode
        rw [List.reverse_reverse]
        exact fun hparent => hprefix (hparent.trans (List.dropLast_prefix _))
      obtain ⟨place, content', hplace, hfile⟩ := h directory hbelow hbefore
      have hdifferent : place ≠ path := by
        rintro rfl
        obtain ⟨way, _, hway⟩ := Path.isBelow_iff.mp hplace
        exact hprefix ⟨way, hway.symm⟩
      refine ⟨place, content', hplace, ?_⟩
      rw [node?_put hnil, if_neg hdifferent]
      exact (hmade.file_iff (Path.isBelow_trans hbelow hplace) content').mpr hfile
  · cases hok.symm.trans hfault

/-- **Storing leaves a directory over just if it stops short.** -/
theorem occupied_store_iff (ht : Tidy root t) (h : Occupied root t) (key : String)
    (content : List UInt8) :
    Occupied root (store root key content t).2.1 ↔ ¬Strands root t (.store key content) := by
  cases hpath : pathOf root key with
  | error fault =>
      rw [store_of_pathOf_error hpath]
      refine iff_of_true h ?_
      rintro ⟨hother, _⟩
      cases hother.symm.trans hpath
  | ok path =>
      constructor
      · rintro hafter (⟨hother, hstops⟩ | _)
        cases hother.symm.trans hpath
        obtain ⟨fault, hfault⟩ := hstops.store_fails ht.based hpath content
        obtain ⟨hmade, ⟨hok, _⟩ | ⟨_, he⟩⟩ := store_cases ht.based hpath content
        · cases hok.symm.trans hfault
        · -- beneath what was made there is no file, as there was nothing
          rw [he] at hafter
          have hbelow := hstops.isBelow ht.based hpath
          obtain ⟨place, content', hplace, hfile⟩ := hafter _ hbelow (hstops.made ht hpath)
          have hbefore := (hmade.file_iff (Path.isBelow_trans hbelow hplace) content').mp hfile
          rw [hstops.breaks.empty_below ht hbelow place hplace] at hbefore
          cases hbefore
      · intro hstays
        cases hstore : (store root key content t).1 with
        | ok _ => exact occupied_of_stored ht h hpath hstore
        | error fault =>
            obtain ⟨_, ⟨hok, _⟩ | ⟨_, he⟩⟩ := store_cases ht.based hpath content
            · cases hok.symm.trans hstore
            · rw [he]
              by_cases hchanged : prepared path t = t
              · rwa [hchanged]
              · obtain ⟨way, name, rest, hstops⟩ := stopsShort_of_changed ht hpath hstore hchanged
                exact absurd (.store hpath hstops) hstays

/-! ## Removing -/

/-- The files that are left are those that were there, but for the one that was removed. -/
theorem HasFile.file_without_iff (h : HasFile root t key path) {place : Path} :
    (without root key t).node? place = some (.file content) ↔
      place ≠ path ∧ t.node? place = some (.file content) := by
  rw [h.without_eq]
  unfold dropParent
  split
  · -- the directory that goes, too, is no file
    rw [file_erase_iff, file_erase_iff]
    refine and_iff_right_of_imp ?_
    rintro ⟨_, hnode⟩ rfl
    cases h.directory.symm.trans hnode
  · exact file_erase_iff

/-- The directories that are left were there. The one of the artifact is left only if something
else is in it. -/
theorem HasFile.directory_of_without (h : HasFile root t key path) {directory : Path}
    (hbelow : root.isBelow directory)
    (hnode : (without root key t).node? directory = some .directory) :
    t.node? directory = some .directory ∧
      (directory = path.dropLast → ∃ place node, directory.isBelow place ∧ place ≠ path ∧
        t.node? place = some node) := by
  have hnil := Path.ne_nil_of_isBelow hbelow
  rw [h.without_eq] at hnode
  unfold dropParent at hnode
  split at hnode
  · obtain ⟨hparent, hnode⟩ := node?_of_erase hnil hnode
    exact ⟨(node?_of_erase hnil hnode).2, fun he => absurd he hparent⟩
  · rename_i hkept
    refine ⟨(node?_of_erase hnil hnode).2, ?_⟩
    rintro rfl
    have hroot : path.dropLast ≠ root := by
      intro he
      rw [he] at hbelow
      exact Path.not_isBelow_of_prefix (List.prefix_refl root) hbelow
    by_contra hnone
    refine hkept ⟨hroot, isEmptyBelow_iff.mpr fun place hplace => ?_⟩
    cases hthere : (t.erase path).node? place with
    | none => rfl
    | some node =>
        obtain ⟨hother, hbefore⟩ := node?_of_erase (Path.ne_nil_of_isBelow hplace) hthere
        exact absurd ⟨place, node, hplace, hother, hbefore⟩ hnone

/-- Where files were beneath all directories, one is still beneath each that is left, unless the
artifact was the last one beneath the directory above its own. -/
theorem occupied_without (h : Occupied root t) (hfile : HasFile root t key path)
    (hstays : ¬Strands root t (.delete key)) : Occupied root (without root key t) := by
  intro directory hbelow hnode
  obtain ⟨hbefore, hparent⟩ := hfile.directory_of_without hbelow hnode
  by_contra hnone
  -- the artifact is the only file beneath the directory
  have honly : ∀ place content, directory.isBelow place →
      t.node? place = some (.file content) → place = path := by
    intro place content hplace hcontent
    by_contra hother
    exact hnone ⟨place, content, hplace, hfile.file_without_iff.mpr ⟨hother, hcontent⟩⟩
  have hartifact : directory.isBelow path := by
    obtain ⟨place, content, hplace, hcontent⟩ := h directory hbelow hbefore
    exact honly place content hplace hcontent ▸ hplace
  by_cases he : directory = path.dropLast
  · -- what else is in it would have a file beneath it
    obtain ⟨place, node, hplace, hother, hthere⟩ := hparent he
    cases node with
    | file content => exact hother (honly place content hplace hthere)
    | directory =>
        obtain ⟨inner, content, hinner, hcontent⟩ :=
          h place (Path.isBelow_trans hbelow hplace) hthere
        have hsame := honly inner content (Path.isBelow_trans hplace hinner) hcontent
        rw [hsame] at hinner
        rw [he] at hplace
        exact Path.not_isBelow_of_prefix (Path.prefix_dropLast hinner) hplace
  · have habove := Path.prefix_dropLast
      (Path.isBelow_of_prefix_ne (Path.prefix_dropLast hartifact) he)
    refine hstays (.delete hfile (Path.isBelow_prefix_right hbelow habove) ?_)
    intro place content hplace hcontent
    exact honly place content (Path.isBelow_prefix_left habove hplace) hcontent

/-- The directory above that of the artifact stays, and nothing is beneath it any more. -/
theorem not_occupied_without (hfile : HasFile root t key path)
    (habove : root.isBelow path.dropLast.dropLast)
    (hlast : ∀ place content, Path.isBelow path.dropLast.dropLast place →
      t.node? place = some (.file content) → place = path) :
    ¬Occupied root (without root key t) := by
  have hnil := ne_nil_of_pathOf hfile.means
  have hlong : 2 ≤ path.length := by
    by_contra hshort
    have hdropped : path.dropLast.dropLast = [] := by
      apply List.length_eq_zero_iff.mp
      simp only [List.length_dropLast]
      omega
    exact Path.ne_nil_of_isBelow habove hdropped
  have hlengths : path.dropLast.dropLast.length + 2 = path.length := by
    simp only [List.length_dropLast]
    omega
  have hdirectory : t.node? path.dropLast.dropLast = some .directory := by
    obtain ⟨content, hstatus⟩ := hfile.file
    refine directory_of_status hstatus (Path.isBelow_of_prefix_ne ?_ ?_)
    · exact (List.dropLast_prefix _).trans (List.dropLast_prefix _)
    · intro he
      rw [he] at hlengths
      omega
  have hkept : (without root key t).node? path.dropLast.dropLast = some .directory := by
    rw [hfile.node?_without, hdirectory]
    · intro he
      rw [he] at hlengths
      omega
    · intro he
      have := congrArg List.length he
      simp only [List.length_dropLast] at this
      omega
  intro hafter
  obtain ⟨place, content, hplace, hcontent⟩ := hafter _ habove hkept
  obtain ⟨hother, hbefore⟩ := hfile.file_without_iff.mp hcontent
  exact hother (hlast place content hplace hbefore)

/-- **Removing leaves a directory over just if the artifact was the last one beneath the directory
above its own.** -/
theorem occupied_delete_iff (h : Occupied root t) (key : String) :
    Occupied root (without root key t) ↔ ¬Strands root t (.delete key) := by
  by_cases hfile : ∃ path, HasFile root t key path
  · constructor
    · rintro hafter (_ | ⟨hthere, habove, hlast⟩)
      exact not_occupied_without hthere habove hlast hafter
    · intro hstays
      obtain ⟨path, hthere⟩ := hfile
      exact occupied_without h hthere hstays
  · rw [without_of_no_file (not_exists.mp hfile)]
    refine iff_of_true h ?_
    rintro (_ | ⟨hthere, _, _⟩)
    exact hfile ⟨_, hthere⟩

/-! ## Every sequence of accesses -/

/-- One access leaves no directory over, if there was none before, just if it strands none. -/
theorem occupied_answer_iff (ht : Tidy root t) (h : Occupied root t) (access : Access) :
    Occupied root ((inDirectory root).answer access t).2.1 ↔ ¬Strands root t access := by
  cases access with
  | store key content => exact occupied_store_iff ht h key content
  | load key => exact iff_of_true h nofun
  | delete key => exact occupied_delete_iff h key

/-- **The file of a release stands in the directory of its plugin**, and can stand there. -/
structure Flat (root : Path) (plugin version : String) : Prop where
  /-- The directory of the plugin is one component. -/
  canonical : Validator.isCanonicalId plugin
  /-- So is the file. -/
  plain : IsPlain version
  /-- Its name is not too long. -/
  short : Text.octetLength (version ++ ".zip") ≤ nameLimit
  /-- Its path is not either. -/
  fits : Text.octetLength (Path.text (root ++ [plugin, version ++ ".zip"])) ≤ pathLimit

/-- No directory is left over for a file in the directory of its plugin. -/
theorem Flat.not_strands {plugin version : String} (h : Flat root plugin version)
    (hroot : t.hasDirectory root) {access : Access} (hkey : access.key = Artifacts.key plugin version) :
    ¬Strands root t access := by
  rintro (@⟨key, content, path, way, rest, name, hpath, hstops⟩ | @⟨key, path, hfile, habove, _⟩)
  · cases hkey
    have hbelow := hstops.isBelow hroot hpath
    have hsplit := hstops.split
    have he := eq_of_pathOf_key h.canonical h.plain hpath
    obtain ⟨down, hdown, hway⟩ := Path.isBelow_iff.mp hbelow
    -- only the directory of the plugin can be missing
    have hrest : rest = [version ++ ".zip"] := by
      rw [List.append_cons, hway, he, List.append_assoc] at hsplit
      have hnames := List.append_cancel_left hsplit
      obtain ⟨first, more, rfl⟩ := List.exists_cons_of_ne_nil hdown
      rw [List.cons_append] at hnames
      have hlast := (List.cons.inj hnames).2
      cases more with
      | nil => exact hlast.symm
      | cons second more =>
          have hnone := (List.cons.inj hlast).2
          exact absurd (List.append_eq_nil_iff.mp hnone.symm).2 hstops.inner
    rcases hstops.stops with hlong | ⟨other, hother, hlong⟩
    · rw [he] at hlong
      exact absurd h.fits (Nat.not_le.mpr hlong)
    · rw [hrest, List.mem_singleton] at hother
      rw [hother] at hlong
      exact absurd h.short (Nat.not_le.mpr hlong)
  · cases hkey
    have he := eq_of_pathOf_key h.canonical h.plain hfile.means
    have habove' : path.dropLast.dropLast = root := by simp [he]
    rw [habove'] at habove
    exact Path.not_isBelow_of_prefix (List.prefix_refl _) habove

theorem afterAccesses_concat (accesses : List Access) (access : Access) (t : FileTree) :
    afterAccesses root (accesses ++ [access]) t =
      ((inDirectory root).answer access (afterAccesses root accesses t)).2.1 := by
  unfold afterAccesses
  rw [List.foldl_concat]

/-- **No directory is left over just if no access strands one.** From an empty root on, every
directory has an artifact beneath it after each access, so long as none of them removes the last
artifact beneath a directory from a deeper one, or fails to store one further down than the first
directory that it makes. Where the file of a release stands in the directory of its plugin, none
does. -/
theorem occupied_afterAccesses_iff (hroot : t.hasDirectory root) (hempty : t.isEmptyBelow root)
    (accesses : List Access) :
    ((∀ before, before <+: accesses → Occupied root (afterAccesses root before t)) ↔
      ∀ before access, before ++ [access] <+: accesses →
        ¬Strands root (afterAccesses root before t) access) ∧
    ((∀ access ∈ accesses, ∃ plugin version, access.key = Artifacts.key plugin version ∧
        Flat root plugin version) →
      ∀ before, before <+: accesses → Occupied root (afterAccesses root before t)) := by
  have htidy : ∀ before, Tidy root (afterAccesses root before t) :=
    tidy_afterAccesses (.of_empty hroot hempty)
  have hiff : (∀ before, before <+: accesses → Occupied root (afterAccesses root before t)) ↔
      ∀ before access, before ++ [access] <+: accesses →
        ¬Strands root (afterAccesses root before t) access := by
    constructor
    · intro hall before access hprefix
      have hbefore := hall before ((List.prefix_append _ _).trans hprefix)
      refine (occupied_answer_iff (htidy before) hbefore access).mp ?_
      rw [← afterAccesses_concat]
      exact hall _ hprefix
    · intro hnone before hprefix
      induction before using List.reverseRecOn with
      | nil => exact .of_empty hempty
      | append_singleton before access ih =>
          have hbefore := ih ((List.prefix_append _ _).trans hprefix)
          rw [afterAccesses_concat]
          exact (occupied_answer_iff (htidy before) hbefore access).mpr
            (hnone before access hprefix)
  refine ⟨hiff, fun hflat => hiff.mpr fun before access hprefix => ?_⟩
  have hmem : access ∈ accesses := hprefix.subset (by simp)
  obtain ⟨plugin, version, hkey, h⟩ := hflat access hmem
  exact h.not_strands (htidy before).based hkey

/-- A release whose version has a separator in it is stored and removed again. -/
def nested : List Access :=
  [.store (Artifacts.key "acme.a" "1/0") [80, 75], .delete (Artifacts.key "acme.a" "1/0")]

/-- The directory of the plugin is left over, with nothing beneath it, by what was removed last. -/
theorem occupied_afterAccesses_iff_nested :
    ¬Occupied ["srv", "store"]
      (afterAccesses ["srv", "store"] nested (.withDirectory ["srv", "store"])) ∧
    ∃ before access, before ++ [access] <+: nested ∧
      Strands ["srv", "store"]
        (afterAccesses ["srv", "store"] before (.withDirectory ["srv", "store"])) access := by
  have hroot : (FileTree.withDirectory ["srv", "store"]).hasDirectory ["srv", "store"] := by
    decide
  have hempty : (FileTree.withDirectory ["srv", "store"]).isEmptyBelow ["srv", "store"] := by
    decide
  have hpath : pathOf ["srv", "store"] (Artifacts.key "acme.a" "1/0")
      = .ok ["srv", "store", "acme.a", "1", "0.zip"] :=
    pathOf_eq_ok.mpr (by decide +kernel)
  have hrun : afterAccesses ["srv", "store"] nested (.withDirectory ["srv", "store"])
      = (delete _ (Artifacts.key "acme.a" "1/0")
          (store _ (Artifacts.key "acme.a" "1/0") [80, 75] _).2.1).2.1 := rfl
  have hleft : (afterAccesses ["srv", "store"] nested (.withDirectory ["srv", "store"])).node?
        ["srv", "store", "acme.a"] = some .directory ∧
      (afterAccesses ["srv", "store"] nested (.withDirectory ["srv", "store"])).isEmptyBelow
        ["srv", "store", "acme.a"] := by
    rw [hrun]
    unfold store delete
    rw [hpath]
    decide
  have hafter : ¬Occupied ["srv", "store"]
      (afterAccesses ["srv", "store"] nested (.withDirectory ["srv", "store"])) := by
    intro hoccupied
    obtain ⟨place, content, hplace, hfile⟩ := hoccupied _ (by decide) hleft.1
    rw [node?_of_isEmptyBelow hleft.2 hplace] at hfile
    cases hfile
  refine ⟨hafter, ?_⟩
  by_contra hnone
  refine hafter (((occupied_afterAccesses_iff hroot hempty nested).1.mpr ?_) nested
    (List.prefix_refl _))
  intro before access hprefix hstrands
  exact hnone ⟨before, access, hprefix, hstrands⟩

end Artifacts

end PluginRegistry
