import PluginRegistry.Proofs.TidyTrees
import Mathlib.Data.String.Basic
import Mathlib.Logic.Function.Basic

/-!
# A store of files is a finite map

Below the root there are files with contents, each at a way of its own. Storing under a key changes
the content at the way that the key means and no other, removing takes that content away and no
other, and what fails changes no content. Directories come and go with this, and no content does.

What makes it so is that the tree is tidy from when the store began with nothing below its root: a
content that is there is reached, so it is loaded, and it is listed under a key that leads back to
it.
-/

namespace PluginRegistry

namespace Artifacts

open FileTree

variable {root : Path} {t t' : FileTree} {key : String} {content : List UInt8}

/-! ## What an access does -/

/-- The tree once the directories for an artifact were made, as far as they can be. -/
def prepared (path : Path) (t : FileTree) : FileTree := (t.ensureDirectories path.dropLast).1

/-- What storing does: directories are made, and the file is put into the last one, or nothing more
is done. -/
theorem store_cases (hroot : t.hasDirectory root) {path : Path} (hpath : pathOf root key = .ok path)
    (content : List UInt8) :
    Made root t (prepared path t) ∧
      (((store root key content t).1 = .ok () ∧
          (store root key content t).2.1 = (prepared path t).put path (.file content) ∧
          (prepared path t).reachParent path = .ok () ∧
          (prepared path t).node? path ≠ some .directory) ∨
        ((∃ fault, (store root key content t).1 = .error fault) ∧
          (store root key content t).2.1 = prepared path t)) := by
  refine ⟨made_ensureDirectories hroot (spells_of_pathOf hpath), ?_⟩
  unfold store prepared
  rw [hpath]
  dsimp only
  rcases t.ensureDirectories path.dropLast with ⟨t₁, fault | _⟩
  · exact .inr ⟨⟨_, rfl⟩, rfl⟩
  · dsimp only
    unfold FileTree.write
    cases hreach : t₁.reachParent path with
    | error cause => exact .inr ⟨⟨_, rfl⟩, rfl⟩
    | ok _ =>
        dsimp only
        split
        · rename_i hwrite
          split at hwrite
          · exact .inr ⟨⟨_, rfl⟩, rfl⟩
          · cases hwrite
        · rename_i hwrite
          split at hwrite
          · cases hwrite
          · rename_i hnode
            cases hwrite
            exact .inl ⟨rfl, rfl, rfl, hnode⟩

/-- What removing does: the file is taken away, perhaps with its directory, or nothing is done. -/
theorem delete_cases {path : Path} (hpath : pathOf root key = .ok path) :
    ((delete root key t).1 = .ok () ∧ HasFile root t key path ∧
        (delete root key t).2.1 = dropParent root path (t.erase path)) ∨
      ((delete root key t).1 = .ok () ∧ (∀ node, t.status path ≠ .ok node) ∧
        (delete root key t).2.1 = t) ∨
      ((∃ fault, (delete root key t).1 = .error fault) ∧ (delete root key t).2.1 = t) := by
  unfold delete probe
  rw [hpath]
  dsimp only
  cases hstatus : t.status path with
  | error cause =>
      cases cause with
      | nameTooLong => exact .inr (.inr ⟨⟨_, rfl⟩, rfl⟩)
      | _ => exact .inr (.inl ⟨rfl, nofun, rfl⟩)
  | ok node =>
      cases node with
      | directory => exact .inr (.inr ⟨⟨_, rfl⟩, rfl⟩)
      | file content => exact .inl ⟨rfl, ⟨hpath, content, hstatus⟩, rfl⟩

theorem tidy_delete (h : Tidy root t) (key : String) : Tidy root (delete root key t).2.1 := by
  cases hpath : pathOf root key with
  | error fault =>
      rw [delete_of_pathOf_error hpath]
      exact h
  | ok path =>
      rcases delete_cases hpath with ⟨_, hfile, he⟩ | ⟨_, _, he⟩ | ⟨_, he⟩
      · obtain ⟨content, hcontent⟩ := hfile.node
        have hunder := under_of_pathOf hpath
        have hnode : t.node? path ≠ some .directory := by
          rw [hcontent]
          nofun
        have herased := h.erase hunder (h.empty_below hunder.isBelow hnode)
        rw [he]
        unfold dropParent
        split
        · rename_i hdrop
          exact herased.erase (hunder.dropLast.resolve_left hdrop.1)
            (isEmptyBelow_iff.mp hdrop.2)
        · exact herased
      · rw [he]
        exact h
      · rw [he]
        exact h

theorem tidy_store (h : Tidy root t) (key : String) (content : List UInt8) :
    Tidy root (store root key content t).2.1 := by
  cases hpath : pathOf root key with
  | error fault =>
      rw [store_of_pathOf_error hpath]
      exact h
  | ok path =>
      obtain ⟨hmade, ⟨_, he, hreach, hnode⟩ | ⟨_, he⟩⟩ := store_cases h.based hpath content
      · exact he ▸ (hmade.tidy h).put (spells_of_pathOf hpath) hreach hnode (.file content)
      · exact he ▸ hmade.tidy h

/-- **Every access leaves a tidy tree.** -/
theorem tidy_answer (h : Tidy root t) (access : Access) :
    Tidy root ((inDirectory root).answer access t).2.1 := by
  cases access with
  | store key content => exact tidy_store h key content
  | load key => exact h
  | delete key => exact tidy_delete h key

theorem tidy_afterAccesses (h : Tidy root t) (accesses : List Access) :
    Tidy root (afterAccesses root accesses t) := by
  induction accesses generalizing t with
  | nil => exact h
  | cons access rest ih => exact ih (tidy_answer h access)

/-! ## The map -/

/-- The content at each way below the root. -/
def contents (root : Path) (t : FileTree) (way : Path) : Option (List UInt8) :=
  match t.node? (root ++ way) with
  | some (.file content) => some content
  | _ => none

theorem contents_eq_some {way : Path} :
    contents root t way = some content ↔ t.node? (root ++ way) = some (.file content) := by
  unfold contents
  split
  · rename_i hnode
    rw [hnode, Option.some_inj, Option.some_inj, FileNode.file.injEq]
  · rename_i hnode
    exact iff_of_false nofun (hnode content)

/-- What is put somewhere changes what is there, and a directory is no content. -/
theorem contents_put {way : Path} (hway : way ≠ []) (node : FileNode) :
    contents root (t.put (root ++ way) node) =
      Function.update (contents root t) way
        (match node with | .file content => some content | .directory => none) := by
  funext other
  unfold contents
  rw [node?_put (by simp [hway])]
  by_cases he : other = way
  · subst he
    rw [if_pos rfl, Function.update_self]
    cases node <;> rfl
  · rw [if_neg fun h => he (List.append_cancel_left h), Function.update_of_ne he]

theorem contents_erase {way : Path} (hway : way ≠ []) :
    contents root (t.erase (root ++ way)) = Function.update (contents root t) way none := by
  funext other
  unfold contents
  by_cases he : other = way
  · subst he
    rw [node?_erase_self (by simp [hway]), Function.update_self]
  · rw [node?_erase fun h => he (List.append_cancel_left h), Function.update_of_ne he]

/-- Directories are no contents. -/
theorem contents_made (h : Made root t t') : contents root t' = contents root t := by
  induction h with
  | none => rfl
  | @more t' path _ hpath _ hfree ih =>
      obtain ⟨way, hway, _, rfl⟩ := hpath
      have hnone : contents root t' way = none := by
        unfold contents
        rw [hfree]
      rw [contents_put hway, ← ih, ← hnone]
      exact Function.update_eq_self way _

theorem way_ne_nil {way : Path} (h : pathOf root key = .ok (root ++ way)) : way ≠ [] := by
  rintro rfl
  rw [List.append_nil] at h
  exact Path.not_isBelow_of_prefix (List.prefix_refl root) (isBelow_of_pathOf h)

theorem contents_store {way : Path} (hroot : t.hasDirectory root)
    (hpath : pathOf root key = .ok (root ++ way))
    (hok : (store root key content t).1 = .ok ()) :
    contents root (store root key content t).2.1 =
      Function.update (contents root t) way (some content) := by
  obtain ⟨hmade, ⟨_, he, _⟩ | ⟨⟨fault, hfault⟩, _⟩⟩ := store_cases hroot hpath content
  · rw [he, contents_put (way_ne_nil hpath), contents_made hmade]
  · cases hok.symm.trans hfault

theorem contents_delete {way : Path} (h : Tidy root t) (hpath : pathOf root key = .ok (root ++ way))
    (hok : (delete root key t).1 = .ok ()) :
    contents root (delete root key t).2.1 = Function.update (contents root t) way none := by
  have hway := way_ne_nil hpath
  rcases delete_cases hpath with ⟨_, hfile, he⟩ | ⟨_, hnone, he⟩ | ⟨⟨fault, hfault⟩, _⟩
  · rw [he, ← contents_erase hway]
    unfold dropParent
    split
    · -- the directory that goes, too, is at a way without a content
      rename_i hdrop
      rw [List.dropLast_append_of_ne_nil hway] at hdrop ⊢
      have hparent : way.dropLast ≠ [] := fun hnil => hdrop.1 (by rw [hnil, List.append_nil])
      have hdirectory := hfile.directory
      rw [List.dropLast_append_of_ne_nil hway] at hdirectory
      have hcontent : contents root (t.erase (root ++ way)) way.dropLast = none := by
        unfold contents
        rw [node?_erase fun heq => ?_, hdirectory]
        have hlength := congrArg List.length (List.append_cancel_left heq)
        rw [List.length_dropLast] at hlength
        have := List.length_pos_iff.mpr hway
        omega
      rw [contents_erase hparent, ← hcontent]
      exact Function.update_eq_self _ _
    · rfl
  · -- nothing is reached there, so there is no content
    have hcontent : contents root t way = none := by
      rw [Option.eq_none_iff_forall_ne_some]
      intro content hcontent
      have hnode := contents_eq_some.mp hcontent
      exact hnone _ (h.reached _ _ (isBelow_of_pathOf hpath) hnode)
    rw [he, ← hcontent]
    exact (Function.update_eq_self _ _).symm
  · cases hok.symm.trans hfault

theorem contents_store_of_error (hroot : t.hasDirectory root) {fault : StoreFault}
    (h : (store root key content t).1 = .error fault) :
    contents root (store root key content t).2.1 = contents root t := by
  cases hpath : pathOf root key with
  | error fault => rw [store_of_pathOf_error hpath]
  | ok path =>
      obtain ⟨hmade, ⟨hok, _⟩ | ⟨_, he⟩⟩ := store_cases hroot hpath content
      · cases hok.symm.trans h
      · rw [he, contents_made hmade]

theorem contents_delete_of_error {fault : StoreFault} (h : (delete root key t).1 = .error fault) :
    contents root (delete root key t).2.1 = contents root t := by
  cases hpath : pathOf root key with
  | error fault => rw [delete_of_pathOf_error hpath]
  | ok path =>
      rcases delete_cases hpath with ⟨hok, _⟩ | ⟨hok, _⟩ | ⟨_, he⟩
      · cases hok.symm.trans h
      · cases hok.symm.trans h
      · rw [he]

/-- What fails changes no content. -/
theorem contents_of_error (hroot : t.hasDirectory root) {access : Access} {fault : StoreFault}
    (h : ((inDirectory root).answer access t).1 = .error fault) :
    contents root ((inDirectory root).answer access t).2.1 = contents root t := by
  cases access with
  | store key content =>
      change (store root key content t).1.map (fun _ => none) = .error fault at h
      exact contents_store_of_error hroot (error_of_map h)
  | load key => rfl
  | delete key =>
      change (delete root key t).1.map (fun _ => none) = .error fault at h
      exact contents_delete_of_error (error_of_map h)

theorem load_eq_ok_iff {way : Path} (h : Tidy root t)
    (hpath : pathOf root key = .ok (root ++ way)) :
    load root key t = .ok content ↔ contents root t way = some content := by
  rw [contents_eq_some]
  constructor
  · intro hload
    obtain ⟨path, hfile⟩ := hasFile_of_load hload
    cases hpath.symm.trans hfile.means
    obtain ⟨found, hfound⟩ := hfile.file
    rw [load_of_pathOf hpath, ← FileTree.status, hfound] at hload
    cases hload
    exact node?_of_status hfound
  · intro hnode
    have hstatus := h.reached _ _ (isBelow_of_pathOf hpath) hnode
    rw [load_of_pathOf hpath, ← FileTree.status, hstatus]
    rfl

/-! ## The list of keys -/

theorem lookup_eq_some_iff {below : Path → Bool} {nodes : List (Path × FileNode)}
    (hn : ((nodes.map Prod.fst).filter below).Nodup) {place : Path} (hbelow : below place)
    {node : FileNode} : nodes.lookup place = some node ↔ (place, node) ∈ nodes := by
  induction nodes with
  | nil => simp
  | cons entry rest ih =>
      obtain ⟨there, old⟩ := entry
      rw [List.map_cons] at hn
      have hrest := hn.sublist ((List.sublist_cons_self _ _).filter _)
      rw [List.lookup_cons, List.mem_cons, Prod.mk.injEq]
      by_cases he : place = there
      · subst he
        rw [beq_self_eq_true]
        rw [List.filter_cons_of_pos hbelow, List.nodup_cons] at hn
        have hother : (place, node) ∉ rest := fun hmem =>
          hn.1 (List.mem_filter.mpr ⟨List.mem_map_of_mem (f := Prod.fst) hmem, hbelow⟩)
        simp [hother, eq_comm]
      · simp [he, beq_eq_false_iff_ne.mpr he, ih hrest]

/-- A content is below the root, and at a way that a key can spell. -/
theorem spelled_of_contents (h : Tidy root t) {way : Path}
    (hcontent : contents root t way = some content) :
    way ≠ [] ∧ ∀ name ∈ way, Path.IsSpelled name := by
  have hnode := contents_eq_some.mp hcontent
  have hway : way ≠ [] := by
    rintro rfl
    have hroot := node?_of_walk (hasDirectory_iff.mp h.based).2
    rw [List.nil_append] at hroot
    rw [List.append_nil, hroot] at hnode
    cases hnode
  obtain ⟨way', _, hnames, he⟩ :=
    h.spelled _ _ (Path.isBelow_iff.mpr ⟨way, hway, rfl⟩) hnode
  exact ⟨hway, List.append_cancel_left he ▸ hnames⟩

theorem mem_filesBelow (h : Tidy root t) {place : Path} :
    place ∈ t.filesBelow root ↔
      ∃ way content, contents root t way = some content ∧ place = root ++ way := by
  unfold filesBelow
  rw [List.mem_filterMap]
  constructor
  · rintro ⟨⟨there, node⟩, hentry, hmatch⟩
    cases node with
    | directory => cases hmatch
    | file content =>
        dsimp only at hmatch
        split at hmatch
        · rename_i hbelow
          cases hmatch
          obtain ⟨way, _, rfl⟩ := Path.isBelow_iff.mp hbelow
          have hlookup := (lookup_eq_some_iff h.distinct hbelow).mpr hentry
          refine ⟨way, content, contents_eq_some.mpr ?_, rfl⟩
          unfold node?
          rw [if_neg (by simpa using Path.ne_nil_of_isBelow hbelow), hlookup]
        · cases hmatch
  · rintro ⟨way, content, hcontent, rfl⟩
    have hway := (spelled_of_contents h hcontent).1
    have hbelow : root.isBelow (root ++ way) := Path.isBelow_iff.mpr ⟨way, hway, rfl⟩
    have hnode := contents_eq_some.mp hcontent
    unfold node? at hnode
    rw [if_neg (by simpa using Path.ne_nil_of_isBelow hbelow)] at hnode
    refine ⟨_, (lookup_eq_some_iff h.distinct hbelow).mp hnode, ?_⟩
    exact if_pos hbelow

theorem filesBelow_sublist (root : Path) (t : FileTree) :
    (t.filesBelow root).Sublist ((t.nodes.map Prod.fst).filter root.isBelow) := by
  unfold filesBelow
  generalize t.nodes = nodes
  induction nodes with
  | nil => exact .slnil
  | cons entry rest ih =>
      obtain ⟨there, node⟩ := entry
      rw [List.map_cons]
      by_cases hbelow : root.isBelow there
      · rw [List.filter_cons_of_pos hbelow]
        cases node with
        | directory => exact .cons _ (by simpa using ih)
        | file content => simpa [List.filterMap_cons, hbelow] using ih
      · rw [List.filter_cons_of_neg hbelow]
        cases node with
        | directory => simpa using ih
        | file content => simpa [List.filterMap_cons, hbelow] using ih

theorem relativeTo_append (root way : Path) :
    root.relativeTo (root ++ way) = "/".intercalate way := by
  unfold Path.relativeTo
  rw [List.drop_left]

/-- A way that is spelled can be told from its key. -/
theorem intercalate_inj {way other : Path} (hway : way ≠ [])
    (hnames : ∀ name ∈ way, Path.IsSpelled name) (hother : other ≠ [])
    (hnames' : ∀ name ∈ other, Path.IsSpelled name)
    (h : "/".intercalate way = "/".intercalate other) : way = other := by
  have hsplit := Text.split_intercalate hway fun name hname => (hnames name hname).plain
  rw [h, Text.split_intercalate hother fun name hname => (hnames' name hname).plain] at hsplit
  exact hsplit.symm

/-- The list of keys has the key of each content once, in order. -/
theorem listKeys_spec (h : Tidy root t) :
    (listKeys root t).Pairwise (· < ·) ∧
      ∀ key, key ∈ listKeys root t ↔
        ∃ way content, contents root t way = some content ∧ key = "/".intercalate way := by
  have hmem : ∀ key, key ∈ listKeys root t ↔
      ∃ way content, contents root t way = some content ∧ key = "/".intercalate way := by
    intro key
    unfold listKeys
    rw [List.mem_mergeSort, List.mem_map]
    constructor
    · rintro ⟨place, hplace, rfl⟩
      obtain ⟨way, content, hcontent, rfl⟩ := (mem_filesBelow h).mp hplace
      exact ⟨way, content, hcontent, relativeTo_append root way⟩
    · rintro ⟨way, content, hcontent, rfl⟩
      exact ⟨root ++ way, (mem_filesBelow h).mpr ⟨way, content, hcontent, rfl⟩,
        relativeTo_append root way⟩
  have hnodup : (listKeys root t).Nodup := by
    unfold listKeys
    rw [(List.mergeSort_perm _ _).nodup_iff]
    refine List.Nodup.map_on ?_ (h.distinct.sublist (filesBelow_sublist root t))
    intro place hplace other hother he
    obtain ⟨way, content, hcontent, rfl⟩ := (mem_filesBelow h).mp hplace
    obtain ⟨way', content', hcontent', rfl⟩ := (mem_filesBelow h).mp hother
    rw [relativeTo_append, relativeTo_append] at he
    obtain ⟨hway, hnames⟩ := spelled_of_contents h hcontent
    obtain ⟨hway', hnames'⟩ := spelled_of_contents h hcontent'
    rw [intercalate_inj hway hnames hway' hnames' he]
  have hsorted : (listKeys root t).Pairwise (fun a b => decide (a ≤ b) = true) := by
    refine List.pairwise_mergeSort (fun a b c hab hbc => ?_) (fun a b => ?_) _
    · exact decide_eq_true (le_trans (of_decide_eq_true hab) (of_decide_eq_true hbc))
    · rw [Bool.or_eq_true, decide_eq_true_eq, decide_eq_true_eq]
      exact le_total a b
  exact ⟨(hsorted.and hnodup).imp fun h => lt_of_le_of_ne (of_decide_eq_true h.1) h.2, hmem⟩

/-! ## The refinement -/

/-- Whether something can be stored does not depend on what it is. -/
theorem store_result (root : Path) (key : String) (content content' : List UInt8) (t : FileTree) :
    (store root key content t).1 = (store root key content' t).1 := by
  unfold store
  cases pathOf root key with
  | error fault => rfl
  | ok path =>
      dsimp only
      rcases t.ensureDirectories path.dropLast with ⟨t₁, fault | _⟩
      · rfl
      · dsimp only
        unfold FileTree.write
        cases t₁.reachParent path with
        | error cause => rfl
        | ok _ =>
            dsimp only
            cases t₁.node? path with
            | none => rfl
            | some node => cases node <;> rfl

/-- Keys of two ways part as soon as something is stored under one of them. -/
theorem way_eq_of_loads {other : String} {way way' : Path} (h : Tidy root t)
    (hpath : pathOf root key = .ok (root ++ way)) (hother : pathOf root other = .ok (root ++ way'))
    (hok : (store root key content t).1 = .ok ())
    (hsame : ∀ content, load root key (store root key content t).2.1 = .ok content →
      load root other (store root key content t).2.1 = .ok content) : way = way' := by
  by_contra hne
  have hafter : ∀ content, contents root t way' = some content := by
    intro content'
    have hok' : (store root key content' t).1 = .ok () :=
      (store_result root key content' content t).trans hok
    have hcontents := contents_store h.based hpath hok'
    have ht := tidy_store h key content'
    have hload := hsame content' ((load_eq_ok_iff ht hpath).mpr (by
      rw [hcontents, Function.update_self]))
    have hthere := (load_eq_ok_iff ht hother).mp hload
    rwa [hcontents, Function.update_of_ne (Ne.symm hne)] at hthere
  -- two contents cannot both have been there before
  cases (hafter []).symm.trans (hafter [0])

/-- **The store is the map.** What stands below the root is told by the contents at the ways below
it, and each access does to them what it says. -/
structure IsMap (root : Path) (t : FileTree) : Prop where
  /-- A content that is stored is there afterwards, and the others are as before. -/
  stored : ∀ {key : String} {way : Path} {content : List UInt8},
    pathOf root key = .ok (root ++ way) → (store root key content t).1 = .ok () →
    contents root (store root key content t).2.1 =
      Function.update (contents root t) way (some content)
  /-- What is loaded is what is there. -/
  loaded : ∀ {key : String} {way : Path} {content : List UInt8},
    pathOf root key = .ok (root ++ way) →
    (load root key t = .ok content ↔ contents root t way = some content)
  /-- A content that is removed is not there afterwards, and the others are as before. -/
  deleted : ∀ {key : String} {way : Path}, pathOf root key = .ok (root ++ way) →
    (delete root key t).1 = .ok () →
    contents root (delete root key t).2.1 = Function.update (contents root t) way none
  /-- What fails leaves all as before. -/
  failed : ∀ {access : Access} {fault : StoreFault},
    ((inDirectory root).answer access t).1 = .error fault →
    contents root ((inDirectory root).answer access t).2.1 = contents root t
  /-- The keys that are listed are in order, and each is there once. -/
  sorted : (listKeys root t).Pairwise (· < ·)
  /-- They are the ways that have a content. -/
  listed : ∀ {key : String}, key ∈ listKeys root t ↔
    ∃ way content, contents root t way = some content ∧ key = "/".intercalate way
  /-- A key that is listed leads back to where it was found. -/
  reloaded : ∀ {key : String}, key ∈ listKeys root t →
    ∃ way content, contents root t way = some content ∧ pathOf root key = .ok (root ++ way) ∧
      load root key t = .ok content
  /-- Two keys, under one of which something can be stored at some time, load the same at any time
  just if they mean the same path. -/
  same : ∀ {key other : String} {path path' : Path}, pathOf root key = .ok path →
    pathOf root other = .ok path' →
    (∃ accesses content,
      (store root key content (afterAccesses root accesses t)).1 = .ok ()) →
    ((∀ accesses content, load root key (afterAccesses root accesses t) = .ok content ↔
      load root other (afterAccesses root accesses t) = .ok content) ↔ path = path')

theorem isMap_of_tidy (h : Tidy root t) : IsMap root t where
  stored := contents_store h.based
  loaded := load_eq_ok_iff h
  deleted := contents_delete h
  failed := contents_of_error h.based
  sorted := (listKeys_spec h).1
  listed := (listKeys_spec h).2 _
  reloaded hkey := by
    obtain ⟨way, content, hcontent, rfl⟩ := ((listKeys_spec h).2 _).mp hkey
    obtain ⟨hway, hnames⟩ := spelled_of_contents h hcontent
    have hpath : pathOf root ("/".intercalate way) = .ok (root ++ way) :=
      pathOf_intercalate hway hnames
    exact ⟨way, content, hcontent, hpath, (load_eq_ok_iff h hpath).mpr hcontent⟩
  same {key other _ _} hkey hother hstorable := by
    obtain ⟨way, _, rfl⟩ := Path.isBelow_iff.mp (isBelow_of_pathOf hkey)
    obtain ⟨way', _, rfl⟩ := Path.isBelow_iff.mp (isBelow_of_pathOf hother)
    constructor
    · intro hsame
      obtain ⟨accesses, content, hok⟩ := hstorable
      have ht := tidy_afterAccesses h accesses
      refine congrArg (root ++ ·) (way_eq_of_loads ht hkey hother hok fun content hload => ?_)
      -- one access more than before
      have hone := (hsame (accesses ++ [.store key content]) content).mp
      unfold afterAccesses at hone
      rw [List.foldl_append] at hone
      exact hone hload
    · intro heq accesses content
      have ht := tidy_afterAccesses h accesses
      rw [load_eq_ok_iff ht hkey, load_eq_ok_iff ht hother, List.append_cancel_left heq]

/-- A content is stored, and then another one under another spelling of its key. -/
def respelled : List Access := [.store "a/one.zip" [1], .store "a/./two/../one.zip" [2]]

end Artifacts

end PluginRegistry
