import PluginRegistry.Proofs.NameFaults
import PluginRegistry.Storage.Artifacts

/-!
# What the removal of an artifact takes away

Removing an artifact takes a file away and, if that was the last thing below its directory, the
directory with it. What is loaded under another key can change in two ways only: the other key means
the same file, or it means something below the directory that is gone, by a name that is too long to
be looked for where there is a directory. `Artifacts.Disturbs` says so, and it is exact: under every
other key the same is loaded as before, fault or content.

The proof walks both trees side by side. Only the file and its directory are gone, so the walks can
part at no place but these two, and a path that does not go through the directory meets neither.
-/

namespace PluginRegistry

namespace FileTree

/-! ## Walks -/

theorem lookup_erase (t : FileTree) (path q : Path) :
    (t.erase path).nodes.lookup q = if q = path then none else t.nodes.lookup q := by
  obtain ⟨nodes⟩ := t
  unfold erase
  induction nodes with
  | nil => simp
  | cons entry rest ih =>
      obtain ⟨place, node⟩ := entry
      by_cases hplace : place = path
      · rw [List.filter_cons_of_neg (by simpa using hplace), ih]
        subst hplace
        split
        · rfl
        · rename_i hq
          rw [List.lookup_cons, beq_eq_false_iff_ne.mpr hq]
      · rw [List.filter_cons_of_pos (by simpa using hplace), List.lookup_cons, List.lookup_cons, ih]
        by_cases hq : q = place
        · subst hq
          simp only [beq_self_eq_true, if_neg hplace]
        · simp only [beq_eq_false_iff_ne.mpr hq]

theorem node?_erase {t : FileTree} {path q : Path} (h : q ≠ path) :
    (t.erase path).node? q = t.node? q := by
  unfold node?
  rw [lookup_erase, if_neg h]

theorem node?_erase_self {t : FileTree} {path : Path} (h : path ≠ []) :
    (t.erase path).node? path = none := by
  unfold node?
  rw [lookup_erase, if_pos rfl, if_neg (by simpa using h)]

theorem walk_nil (t : FileTree) (reached : Path) :
    t.walk reached [] =
      match t.node? reached with
      | some node => .ok node
      | none => .error .noEntry := rfl

theorem walk_cons (t : FileTree) (reached rest : Path) (name : String) :
    t.walk reached (name :: rest) =
      match t.node? reached with
      | none => .error .noEntry
      | some (.file _) => .error .notDirectory
      | some .directory =>
        if nameLimit < Text.octetLength name then .error .nameTooLong
        else t.walk (reached ++ [name]) rest := rfl

theorem walk_nil_eq_ok {t : FileTree} {reached : Path} {node : FileNode} :
    t.walk reached [] = .ok node ↔ t.node? reached = some node := by
  rw [walk_nil]
  cases t.node? reached with
  | none => simp
  | some found => simp

theorem walk_cons_eq_ok {t : FileTree} {reached rest : Path} {name : String} {node : FileNode} :
    t.walk reached (name :: rest) = .ok node ↔
      t.node? reached = some .directory ∧ Text.octetLength name ≤ nameLimit ∧
        t.walk (reached ++ [name]) rest = .ok node := by
  rw [walk_cons]
  cases t.node? reached with
  | none => simp
  | some found =>
      cases found with
      | file content => simp
      | directory =>
          by_cases hname : nameLimit < Text.octetLength name
          · simp [hname, Nat.not_le.mpr hname]
          · simp [hname, Nat.le_of_not_lt hname]

theorem walk_cons_of_directory {t : FileTree} {reached : Path} (name : String) (rest : Path)
    (h : t.node? reached = some .directory) :
    t.walk reached (name :: rest) =
      if nameLimit < Text.octetLength name then .error .nameTooLong
      else t.walk (reached ++ [name]) rest := by
  rw [walk_cons, h]

/-- Nothing is found from a place that is not there. -/
theorem walk_of_missing {t : FileTree} {reached : Path} (rest : Path)
    (h : t.node? reached = none) : t.walk reached rest = .error .noEntry := by
  cases rest with
  | nil => rw [walk_nil, h]
  | cons name rest => rw [walk_cons, h]

/-- Walks through the same nodes end alike. -/
theorem walk_congr {t t' : FileTree} {reached rest : Path}
    (h : ∀ way, way <+: rest → t'.node? (reached ++ way) = t.node? (reached ++ way)) :
    t'.walk reached rest = t.walk reached rest := by
  have hhere := h [] List.nil_prefix
  rw [List.append_nil] at hhere
  induction rest generalizing reached with
  | nil => rw [walk_nil, walk_nil, hhere]
  | cons name rest ih =>
      have hbelow : ∀ way, way <+: rest →
          t'.node? (reached ++ [name] ++ way) = t.node? (reached ++ [name] ++ way) := by
        intro way hway
        rw [List.append_assoc]
        exact h ([name] ++ way) (List.cons_prefix_cons.mpr ⟨rfl, hway⟩)
      have hnext := hbelow [] List.nil_prefix
      rw [List.append_nil] at hnext
      rw [walk_cons, walk_cons, hhere, ih hbelow hnext]

/-- A walk ends at a node of the tree. -/
theorem node?_of_walk {t : FileTree} {reached rest : Path} {node : FileNode}
    (h : t.walk reached rest = .ok node) : t.node? (reached ++ rest) = some node := by
  induction rest generalizing reached with
  | nil =>
      rw [List.append_nil]
      exact walk_nil_eq_ok.mp h
  | cons name rest ih =>
      obtain ⟨_, _, hrest⟩ := walk_cons_eq_ok.mp h
      rw [List.append_cons]
      exact ih hrest

/-- A walk goes on from a node that it reached. -/
theorem walk_append {t : FileTree} {reached way : Path} {node : FileNode} (rest : Path)
    (h : t.walk reached way = .ok node) :
    t.walk reached (way ++ rest) = t.walk (reached ++ way) rest := by
  induction way generalizing reached with
  | nil => rw [List.nil_append, List.append_nil]
  | cons name way ih =>
      obtain ⟨hhere, hname, hway⟩ := walk_cons_eq_ok.mp h
      rw [List.cons_append, walk_cons_of_directory _ _ hhere, if_neg (Nat.not_lt.mpr hname),
        ih hway, List.append_assoc]
      rfl

/-- What is reached below a place is reached through a directory. -/
theorem walk_of_append {t : FileTree} {reached way : Path} {name : String} {node : FileNode}
    (h : t.walk reached (way ++ [name]) = .ok node) : t.walk reached way = .ok .directory := by
  induction way generalizing reached with
  | nil => exact walk_nil_eq_ok.mpr (walk_cons_eq_ok.mp h).1
  | cons first way ih =>
      obtain ⟨hhere, hfirst, hway⟩ := walk_cons_eq_ok.mp h
      exact walk_cons_eq_ok.mpr ⟨hhere, hfirst, ih hway⟩

/-- Nothing is found below the end of a walk that has gone. -/
theorem walk_of_gone {t t' : FileTree} {reached way : Path} {node : FileNode} (rest : Path)
    (h : t.walk reached way = .ok node)
    (hway : ∀ before, before <+: way → before ≠ way →
      t'.node? (reached ++ before) = t.node? (reached ++ before))
    (hgone : t'.node? (reached ++ way) = none) :
    t'.walk reached (way ++ rest) = .error .noEntry := by
  induction way generalizing reached with
  | nil =>
      rw [List.append_nil] at hgone
      exact walk_of_missing _ hgone
  | cons name way ih =>
      obtain ⟨hhere, hname, hwalk⟩ := walk_cons_eq_ok.mp h
      have hsame := hway [] List.nil_prefix (List.cons_ne_nil _ _).symm
      rw [List.append_nil] at hsame
      rw [List.cons_append, walk_cons_of_directory _ _ (hsame.trans hhere),
        if_neg (Nat.not_lt.mpr hname)]
      refine ih hwalk (fun before hbefore hne => ?_) ?_
      · rw [List.append_assoc]
        exact hway ([name] ++ before) (List.cons_prefix_cons.mpr ⟨rfl, hbefore⟩)
          fun heq => hne (List.cons.inj heq).2
      · rw [List.append_assoc]
        exact hgone

theorem node?_of_isEmptyBelow {t : FileTree} {directory q : Path} (h : t.isEmptyBelow directory)
    (hq : directory.isBelow q) : t.node? q = none := by
  have hne : q ≠ [] := by
    rintro rfl
    simp [Path.isBelow] at hq
  unfold node?
  rw [if_neg (by simpa using hne), List.lookup_eq_none_iff]
  intro entry hentry
  rw [bne_iff_ne]
  rintro rfl
  unfold isEmptyBelow at h
  rw [Bool.not_eq_true', List.any_eq_false] at h
  exact h entry hentry hq

end FileTree

namespace Artifacts

variable {root : Path} {t : FileTree} {key other : String}

/-! ## One artifact -/

/-- The tree once the artifact of a key was removed. -/
def without (root : Path) (key : String) (t : FileTree) : FileTree := (delete root key t).2.1

/-- There is a file for a key. -/
structure HasFile (root : Path) (t : FileTree) (key : String) (path : Path) : Prop where
  /-- The key means the path. -/
  means : pathOf root key = .ok path
  /-- A file stands there. -/
  file : ∃ content, t.status path = .ok (.file content)

/-- **The removal of the artifact of `key` changes what is loaded under `other`.** -/
inductive Disturbs (root : Path) (t : FileTree) (key other : String) : Prop
  /-- Both keys mean the same file. -/
  | shared {path : Path} (hfile : HasFile root t key path) (hother : pathOf root other = .ok path)
  /-- The directory goes with its last file, and with it the reason why the other key, which means
  something below the directory by a name that is too long, could not be looked for. -/
  | dropped {path : Path} {name : String} {rest : Path} (hfile : HasFile root t key path)
    (hdirectory : path.dropLast ≠ root) (hempty : (t.erase path).isEmptyBelow path.dropLast)
    (hother : pathOf root other = .ok (path.dropLast ++ name :: rest))
    (hname : FileTree.nameLimit < Text.octetLength name)
    (hpath : Text.octetLength (Path.text (path.dropLast ++ name :: rest)) ≤ FileTree.pathLimit)

theorem pathOf_eq_ok {path : Path} :
    pathOf root key = .ok path ↔
      root.nameFault? key = none ∧ root.resolve key = path ∧ root.isBelow path := by
  unfold pathOf
  cases root.nameFault? key with
  | some fault => simp
  | none =>
      dsimp only
      split
      · rename_i hbelow
        constructor
        · rintro ⟨rfl⟩
          exact ⟨rfl, rfl, hbelow⟩
        · rintro ⟨-, rfl, -⟩
          rfl
      · rename_i hbelow
        constructor
        · intro h
          cases h
        · rintro ⟨-, rfl, h⟩
          exact absurd h hbelow

theorem pathOf_eq_error (hnames : root.nameFault? key = none)
    (h : ¬root.isBelow (root.resolve key)) :
    pathOf root key = .error (.error (.artifact .outsideRoot key .resolve)) := by
  rw [pathOf, hnames]
  dsimp only
  rw [if_neg h]

theorem pathOf_of_nameFault {fault : NameFault} (h : root.nameFault? key = some fault) :
    pathOf root key = .error (.name fault) := by
  rw [pathOf, h]

theorem pathOf_cases (root : Path) (key : String) :
    (∃ fault, pathOf root key = .error (.name fault)) ∨
      pathOf root key = .error (.error (.artifact .outsideRoot key .resolve)) ∨
      ∃ path, pathOf root key = .ok path := by
  cases hnames : root.nameFault? key with
  | some fault => exact .inl ⟨fault, pathOf_of_nameFault hnames⟩
  | none =>
      by_cases hbelow : root.isBelow (root.resolve key)
      · exact .inr (.inr ⟨_, pathOf_eq_ok.mpr ⟨hnames, rfl, hbelow⟩⟩)
      · exact .inr (.inl (pathOf_eq_error hnames hbelow))

theorem isBelow_of_pathOf {path : Path} (h : pathOf root key = .ok path) : root.isBelow path :=
  (pathOf_eq_ok.mp h).2.2

theorem ne_nil_of_pathOf {path : Path} (h : pathOf root key = .ok path) : path ≠ [] := by
  rintro rfl
  have hbelow := isBelow_of_pathOf h
  simp [Path.isBelow] at hbelow

theorem store_of_pathOf_error {fault : StoreFault} (h : pathOf root key = .error fault)
    (content : List UInt8) (t : FileTree) : store root key content t = (.error fault, t, []) := by
  unfold store
  rw [h]

theorem load_of_pathOf_error {fault : StoreFault} (h : pathOf root key = .error fault)
    (t : FileTree) : load root key t = .error fault := by
  unfold load
  rw [h]

theorem delete_of_pathOf_error {fault : StoreFault} (h : pathOf root key = .error fault)
    (t : FileTree) : delete root key t = (.error fault, t, []) := by
  unfold delete
  rw [h]

/-- Removing an artifact leaves the tree as it is, unless there is a file for its key. -/
theorem without_of_no_file (h : ∀ path, ¬HasFile root t key path) : without root key t = t := by
  unfold without delete
  cases hpath : pathOf root key with
  | error fault => rfl
  | ok path =>
      dsimp only
      cases hprobe : t.probe path with
      | error fault => rfl
      | ok found =>
          cases found with
          | none => rfl
          | some node =>
              cases node with
              | directory => rfl
              | file content =>
                  refine absurd ⟨hpath, content, ?_⟩ (h path)
                  unfold FileTree.probe at hprobe
                  split at hprobe
                  · rename_i hstatus
                    cases hprobe
                    exact hstatus
                  · cases hprobe
                  · cases hprobe

theorem HasFile.without_eq {path : Path} (h : HasFile root t key path) :
    without root key t = dropParent root path (t.erase path) := by
  obtain ⟨content, hfile⟩ := h.file
  unfold without delete
  rw [h.means]
  simp only [FileTree.probe, hfile]

/-- What is loaded from the end of a walk. -/
def outcome (key : String) (path : Path) :
    Except FileCause FileNode → Except StoreFault (List UInt8)
  | .ok (.file content) => .ok content
  | .error .nameTooLong => .error (.file ⟨.nameTooLong, path.text⟩)
  | _ => .error (.error (.artifact .notFound key .load))

theorem load_of_pathOf {path : Path} (h : pathOf root key = .ok path) :
    load root key t =
      outcome key path (if FileTree.pathLimit < Text.octetLength path.text then .error .nameTooLong
        else t.walk [] path) := by
  unfold load
  rw [h]
  dsimp only
  rw [← FileTree.status]
  unfold FileTree.probe outcome
  cases t.status path with
  | ok node => cases node <;> rfl
  | error cause => cases cause <;> rfl

/-! ## What is loaded after a removal -/

theorem HasFile.eq_append {path : Path} (h : HasFile root t key path) :
    ∃ name, path = path.dropLast ++ [name] :=
  ⟨_, (List.dropLast_concat_getLast (ne_nil_of_pathOf h.means)).symm⟩

theorem HasFile.length_le {path : Path} (h : HasFile root t key path) :
    Text.octetLength path.text ≤ FileTree.pathLimit := by
  obtain ⟨content, hfile⟩ := h.file
  unfold FileTree.status at hfile
  split at hfile
  · cases hfile
  · rename_i hlength
    exact Nat.le_of_not_lt hlength

theorem HasFile.walk {path : Path} (h : HasFile root t key path) :
    ∃ content, t.walk [] path = .ok (.file content) := by
  obtain ⟨content, hfile⟩ := h.file
  rw [FileTree.status, if_neg (Nat.not_lt.mpr h.length_le)] at hfile
  exact ⟨content, hfile⟩

theorem HasFile.walk_directory {path : Path} (h : HasFile root t key path) :
    t.walk [] path.dropLast = .ok .directory := by
  obtain ⟨content, hwalk⟩ := h.walk
  obtain ⟨name, hpath⟩ := h.eq_append
  rw [hpath] at hwalk
  exact FileTree.walk_of_append hwalk

theorem HasFile.directory {path : Path} (h : HasFile root t key path) :
    t.node? path.dropLast = some .directory :=
  FileTree.node?_of_walk h.walk_directory

theorem HasFile.node {path : Path} (h : HasFile root t key path) :
    ∃ content, t.node? path = some (.file content) := by
  obtain ⟨content, hwalk⟩ := h.walk
  exact ⟨content, FileTree.node?_of_walk hwalk⟩

/-- Two places of the tree at most are not as before. -/
theorem HasFile.node?_without {path q : Path} (h : HasFile root t key path) (hpath : q ≠ path)
    (hdirectory : q ≠ path.dropLast) : (without root key t).node? q = t.node? q := by
  rw [h.without_eq]
  unfold dropParent
  split
  · rw [FileTree.node?_erase hdirectory, FileTree.node?_erase hpath]
  · exact FileTree.node?_erase hpath

/-- Outside of the directory all is as before. -/
theorem HasFile.load_outside {path q : Path} (h : HasFile root t key path)
    (hother : pathOf root other = .ok q) (hq : ¬path.dropLast <+: q) :
    load root other (without root key t) = load root other t := by
  have hwalk : (without root key t).walk [] q = t.walk [] q := by
    refine FileTree.walk_congr fun way hway => ?_
    rw [List.nil_append]
    refine h.node?_without ?_ ?_
    · rintro rfl
      exact hq ((List.dropLast_prefix _).trans hway)
    · rintro rfl
      exact hq hway
  rw [load_of_pathOf hother, load_of_pathOf hother, hwalk]

/-- A file has nothing below it. -/
theorem HasFile.walk_through {path : Path} (h : HasFile root t key path) (name : String)
    (rest : Path) : t.walk [] (path ++ name :: rest) = .error .notDirectory := by
  obtain ⟨content, hwalk⟩ := h.walk
  obtain ⟨content, hnode⟩ := h.node
  rw [FileTree.walk_append _ hwalk, List.nil_append, FileTree.walk_cons, hnode]

/-- If the directory stays, nothing is found where the file was, and below. -/
theorem HasFile.walk_erased {path : Path} (h : HasFile root t key path) (rest : Path) :
    (t.erase path).walk [] (path ++ rest) = .error .noEntry := by
  obtain ⟨content, hwalk⟩ := h.walk
  refine FileTree.walk_of_gone _ hwalk (fun before _ hne => FileTree.node?_erase hne) ?_
  exact FileTree.node?_erase_self (ne_nil_of_pathOf h.means)

/-- If the directory stays, all but the file is as before. -/
theorem HasFile.load_kept {path q : Path} (h : HasFile root t key path)
    (hkept : ¬(path.dropLast ≠ root ∧ (t.erase path).isEmptyBelow path.dropLast))
    (hother : pathOf root other = .ok q) (hq : q ≠ path) :
    load root other (without root key t) = load root other t := by
  have herased : without root key t = t.erase path := by
    rw [h.without_eq, dropParent, if_neg hkept]
  rw [load_of_pathOf hother, load_of_pathOf hother, herased]
  by_cases hprefix : path <+: q
  · -- the path goes through the file, which has nothing below it, be it there or not
    obtain ⟨rest, rfl⟩ := hprefix
    cases rest with
    | nil => exact absurd (List.append_nil _) hq
    | cons name rest =>
        rw [h.walk_through, h.walk_erased]
        split
        · rfl
        · rfl
  · have hwalk : (t.erase path).walk [] q = t.walk [] q := by
      refine FileTree.walk_congr fun way hway => FileTree.node?_erase ?_
      rintro rfl
      exact hprefix hway
    rw [hwalk]

/-- If the directory goes, nothing is found in it or below. -/
theorem HasFile.walk_dropped {path : Path} (h : HasFile root t key path)
    (hdropped : path.dropLast ≠ root ∧ (t.erase path).isEmptyBelow path.dropLast) (more : Path) :
    (without root key t).walk [] (path.dropLast ++ more) = .error .noEntry := by
  obtain ⟨name, hpath⟩ := h.eq_append
  have hlength := congrArg List.length hpath
  rw [List.length_append, List.length_singleton] at hlength
  refine FileTree.walk_of_gone _ h.walk_directory (fun before hbefore hne => ?_) ?_
  · refine h.node?_without (fun heq => ?_) hne
    rw [List.nil_append] at heq
    have hle := hbefore.length_le
    rw [heq] at hle
    omega
  · rw [h.without_eq, dropParent, if_pos hdropped, List.nil_append]
    refine FileTree.node?_erase_self fun hnil => hdropped.1 ?_
    -- a path of one component is below nothing but the root of the file system
    rw [hnil, List.length_nil, Nat.zero_add] at hlength
    have hbelow := isBelow_of_pathOf h.means
    rw [Path.isBelow, Bool.and_eq_true, decide_eq_true_iff, hlength] at hbelow
    rw [hnil, List.length_eq_zero_iff.mp (Nat.lt_one_iff.mp hbelow.2)]

/-- The file is gone. -/
theorem HasFile.walk_self {path : Path} (h : HasFile root t key path) :
    (without root key t).walk [] path = .error .noEntry := by
  by_cases hdropped : path.dropLast ≠ root ∧ (t.erase path).isEmptyBelow path.dropLast
  · obtain ⟨name, hpath⟩ := h.eq_append
    have hgone := h.walk_dropped hdropped [name]
    rw [← hpath] at hgone
    exact hgone
  · have hgone := h.walk_erased []
    rw [List.append_nil] at hgone
    rw [h.without_eq, dropParent, if_neg hdropped]
    exact hgone

/-- In a directory that has only the file, nothing else is found. -/
theorem HasFile.walk_emptied {path : Path} (h : HasFile root t key path)
    (hempty : (t.erase path).isEmptyBelow path.dropLast) {name : String} {rest : Path}
    (hname : Text.octetLength name ≤ FileTree.nameLimit)
    (hother : path.dropLast ++ name :: rest ≠ path) :
    t.walk [] (path.dropLast ++ name :: rest) = .error .notDirectory ∨
      t.walk [] (path.dropLast ++ name :: rest) = .error .noEntry := by
  obtain ⟨last, hpath⟩ := h.eq_append
  by_cases hlast : name = last
  · -- the way leads through the file itself
    subst hlast
    cases rest with
    | nil => exact absurd hpath.symm hother
    | cons next rest =>
        refine .inl ?_
        rw [List.append_cons, ← hpath]
        exact h.walk_through next rest
  · refine .inr ?_
    have hne : path.dropLast ++ [name] ≠ path := by
      intro heq
      rw [hpath, List.dropLast_concat] at heq
      exact hlast (List.cons.inj (List.append_cancel_left heq)).1
    have hnode : t.node? (path.dropLast ++ [name]) = none := by
      rw [← FileTree.node?_erase hne]
      refine FileTree.node?_of_isEmptyBelow hempty ?_
      simp [Path.isBelow]
    rw [FileTree.walk_append _ h.walk_directory, List.nil_append,
      FileTree.walk_cons_of_directory _ _ h.directory, if_neg (Nat.not_lt.mpr hname)]
    exact FileTree.walk_of_missing _ hnode

/-- **A removal that disturbs nothing leaves what is loaded as it was.** -/
theorem load_without_of_not_disturbs (h : ¬Disturbs root t key other) :
    load root other (without root key t) = load root other t := by
  by_cases hfile : ∃ path, HasFile root t key path
  · obtain ⟨path, hfile⟩ := hfile
    cases hother : pathOf root other with
    | error fault => simp only [load, hother]
    | ok q =>
        have hq : q ≠ path := by
          rintro rfl
          exact h (.shared hfile hother)
        by_cases hinside : path.dropLast <+: q
        · by_cases hdropped :
              path.dropLast ≠ root ∧ (t.erase path).isEmptyBelow path.dropLast
          · obtain ⟨more, rfl⟩ := hinside
            rw [load_of_pathOf hother, load_of_pathOf hother, hfile.walk_dropped hdropped]
            split
            · rfl
            · rename_i hpath
              cases more with
              | nil =>
                  rw [List.append_nil, hfile.walk_directory]
                  rfl
              | cons name rest =>
                  have hname : Text.octetLength name ≤ FileTree.nameLimit := by
                    refine Nat.le_of_not_lt fun hname => h ?_
                    exact .dropped hfile hdropped.1 hdropped.2 hother hname (Nat.le_of_not_lt hpath)
                  rcases hfile.walk_emptied hdropped.2 hname hq with hwalk | hwalk
                  · rw [hwalk]
                    rfl
                  · rw [hwalk]
          · exact hfile.load_kept hdropped hother hq
        · exact hfile.load_outside hother hinside
  · rw [without_of_no_file (not_exists.mp hfile)]

/-- **A removal that disturbs takes away what was there to load.** Before it, something was loaded
or the name was too long; after it nothing is found. -/
theorem load_without_of_disturbs (h : Disturbs root t key other) :
    load root other (without root key t) = .error (.error (.artifact .notFound other .load)) ∧
      load root other t ≠ .error (.error (.artifact .notFound other .load)) := by
  cases h with
  | @shared path hfile hother =>
      obtain ⟨content, hwalk⟩ := hfile.walk
      have hlength := Nat.not_lt.mpr hfile.length_le
      rw [load_of_pathOf hother, load_of_pathOf hother, hfile.walk_self, if_neg hlength,
        if_neg hlength, hwalk]
      exact ⟨rfl, nofun⟩
  | @dropped path name rest hfile hdirectory hempty hother hname hpath =>
      rw [load_of_pathOf hother, load_of_pathOf hother, hfile.walk_dropped ⟨hdirectory, hempty⟩,
        if_neg (Nat.not_lt.mpr hpath), if_neg (Nat.not_lt.mpr hpath),
        FileTree.walk_append _ hfile.walk_directory, List.nil_append,
        FileTree.walk_cons_of_directory _ _ hfile.directory, if_pos hname]
      exact ⟨rfl, nofun⟩

/-- **What is loaded stays the same exactly if the removal does not disturb it.** -/
theorem load_without_iff :
    load root other (without root key t) = load root other t ↔ ¬Disturbs root t key other := by
  refine ⟨fun hsame hdisturbs => ?_, load_without_of_not_disturbs⟩
  obtain ⟨hafter, hbefore⟩ := load_without_of_disturbs hdisturbs
  exact hbefore (hsame.symm.trans hafter)

/-! ## One artifact after the other -/

/-- The tree once the artifacts of some keys were removed in order. -/
def withoutAll (root : Path) (keys : List String) (t : FileTree) : FileTree :=
  keys.foldl (fun t key => without root key t) t

/-- Something holds of some key, on the tree that the removals before it left. -/
def InTurn (root : Path) (R : FileTree → String → Prop) (keys : List String) (t : FileTree) : Prop :=
  ∃ before key after, keys = before ++ key :: after ∧ R (withoutAll root before t) key

theorem inTurn_cons {R : FileTree → String → Prop} {keys : List String} :
    InTurn root R (key :: keys) t ↔ R t key ∨ InTurn root R keys (without root key t) := by
  constructor
  · rintro ⟨before, first, after, heq, h⟩
    cases before with
    | nil =>
        cases heq
        exact .inl h
    | cons head before =>
        obtain ⟨rfl, hrest⟩ := List.cons.inj heq
        exact .inr ⟨before, first, after, hrest, h⟩
  · rintro (h | ⟨before, first, after, rfl, h⟩)
    · exact ⟨[], key, keys, rfl, h⟩
    · exact ⟨key :: before, first, after, rfl, h⟩

/-- Some removal changes what is loaded under `other`, on the tree that those before it left. -/
def DisturbInTurn (root : Path) (keys : List String) (t : FileTree) (other : String) : Prop :=
  ∃ before key after, keys = before ++ key :: after ∧
    Disturbs root (withoutAll root before t) key other

theorem disturbInTurn_cons {keys : List String} :
    DisturbInTurn root (key :: keys) t other ↔
      Disturbs root t key other ∨ DisturbInTurn root keys (without root key t) other :=
  inTurn_cons (R := fun t key => Disturbs root t key other)

/-- Nothing comes back: what is not found stays so. -/
theorem load_withoutAll_of_notFound (keys : List String)
    (h : load root other t = .error (.error (.artifact .notFound other .load))) :
    load root other (withoutAll root keys t) =
      .error (.error (.artifact .notFound other .load)) := by
  induction keys generalizing t with
  | nil => exact h
  | cons key rest ih =>
      refine ih ((load_without_of_not_disturbs fun hdisturbs => ?_).trans h)
      exact (load_without_of_disturbs hdisturbs).2 h

/-- **What is loaded stays the same exactly if no removal disturbs it.** Once one does, nothing is
found any more. -/
theorem load_withoutAll (keys : List String) :
    (¬DisturbInTurn root keys t other ∧
      load root other (withoutAll root keys t) = load root other t) ∨
    (DisturbInTurn root keys t other ∧
      load root other (withoutAll root keys t) =
        .error (.error (.artifact .notFound other .load)) ∧
      load root other t ≠ .error (.error (.artifact .notFound other .load))) := by
  induction keys generalizing t with
  | nil =>
      refine .inl ⟨?_, rfl⟩
      rintro ⟨before, key, after, heq, _⟩
      simp at heq
  | cons key rest ih =>
      by_cases hdisturbs : Disturbs root t key other
      · -- nothing is found from here on
        obtain ⟨hafter, hbefore⟩ := load_without_of_disturbs hdisturbs
        have hlast := load_withoutAll_of_notFound rest hafter
        exact .inr ⟨disturbInTurn_cons.mpr (.inl hdisturbs), hlast, hbefore⟩
      · have hsame := load_without_of_not_disturbs hdisturbs
        have hlater : DisturbInTurn root (key :: rest) t other ↔
            DisturbInTurn root rest (without root key t) other :=
          disturbInTurn_cons.trans (or_iff_right hdisturbs)
        -- the rest of the removals begin with what is loaded still the same
        have hrest := ih (t := without root key t)
        rw [hsame] at hrest
        rw [hlater]
        exact hrest

theorem load_withoutAll_iff {keys : List String} :
    load root other (withoutAll root keys t) = load root other t ↔
      ¬DisturbInTurn root keys t other := by
  rcases @load_withoutAll root t other keys with
    ⟨hnone, hsame⟩ | ⟨hsome, hafter, hbefore⟩
  · exact iff_of_true hsame hnone
  · exact iff_of_false (fun hsame => hbefore (hsame.symm.trans hafter)) fun hnone => hnone hsome

/-! ## What was removed is gone -/

theorem hasFile_of_load {content : List UInt8} (h : load root key t = .ok content) :
    ∃ path, HasFile root t key path := by
  cases hpath : pathOf root key with
  | error fault =>
      unfold load at h
      rw [hpath] at h
      cases h
  | ok path =>
      rw [load_of_pathOf hpath, ← FileTree.status] at h
      refine ⟨path, hpath, content, ?_⟩
      cases hstatus : t.status path with
      | error cause =>
          rw [hstatus] at h
          cases cause <;> cases h
      | ok node =>
          rw [hstatus] at h
          cases node with
          | directory => cases h
          | file found =>
              cases h
              rfl

/-- Nothing is loaded under the key of an artifact that was removed. -/
theorem load_without_self (content : List UInt8) :
    load root key (without root key t) ≠ .ok content := by
  intro h
  by_cases hfile : ∃ path, HasFile root t key path
  · obtain ⟨path, hfile⟩ := hfile
    cases (load_without_of_disturbs (.shared hfile hfile.means)).1.symm.trans h
  · rw [without_of_no_file (not_exists.mp hfile)] at h
    exact hfile (hasFile_of_load h)

/-- A removal brings no content back. -/
theorem load_without_ne_ok (h : ∀ content, load root other t ≠ .ok content)
    (content : List UInt8) : load root other (without root key t) ≠ .ok content := by
  by_cases hdisturbs : Disturbs root t key other
  · rw [(load_without_of_disturbs hdisturbs).1]
    exact nofun
  · rw [load_without_of_not_disturbs hdisturbs]
    exact h content

theorem load_withoutAll_ne_ok (keys : List String)
    (h : ∀ content, load root other t ≠ .ok content) (content : List UInt8) :
    load root other (withoutAll root keys t) ≠ .ok content := by
  induction keys generalizing t with
  | nil => exact h content
  | cons key rest ih => exact ih (load_without_ne_ok h)

/-- **Nothing is loaded any more under a key that was among those removed.** -/
theorem load_withoutAll_of_mem {keys : List String} (hkey : key ∈ keys) (content : List UInt8) :
    load root key (withoutAll root keys t) ≠ .ok content := by
  obtain ⟨before, after, rfl⟩ := List.append_of_mem hkey
  unfold withoutAll
  rw [List.foldl_append, List.foldl_cons]
  -- from its own removal on there is no content under the key
  exact load_withoutAll_ne_ok after load_without_self content

end Artifacts

end PluginRegistry
