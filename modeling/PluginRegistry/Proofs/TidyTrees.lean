import PluginRegistry.Proofs.ArtifactKeys

/-!
# Tidy trees

A tree is tidy below a root if everything there is reached, so that nothing stands where no key
leads, and is at a path that a key can spell. What a store of files does to a tree keeps it tidy:
it puts something where a new name can stand and no directory is, and it takes away what has nothing
below it. Directories are made on the way to a file, one after the other, where there was nothing.
-/

namespace PluginRegistry

theorem Path.isBelow_of_prefix_ne {way place : Path} (h : way <+: place) (hne : way ≠ place) :
    way.isBelow place := by
  obtain ⟨rest, rfl⟩ := h
  refine isBelow_iff.mpr ⟨rest, fun hnone => hne ?_, rfl⟩
  rw [hnone, List.append_nil]

theorem Path.isBelow_trans {root path place : Path} (hpath : root.isBelow path)
    (hplace : path.isBelow place) : root.isBelow place := by
  obtain ⟨way, hway, rfl⟩ := isBelow_iff.mp hpath
  obtain ⟨rest, _, rfl⟩ := isBelow_iff.mp hplace
  rw [List.append_assoc]
  exact isBelow_iff.mpr ⟨way ++ rest, by simp [hway], rfl⟩

/-- What a place is below is on the way to the directory of the place. -/
theorem Path.prefix_dropLast {path place : Path} (h : path.isBelow place) :
    path <+: place.dropLast := by
  obtain ⟨way, hway, rfl⟩ := isBelow_iff.mp h
  rw [List.dropLast_append_of_ne_nil hway]
  exact List.prefix_append _ _

/-- What is further down than a place below the root is below the root. -/
theorem Path.isBelow_prefix_right {root path place : Path} (hpath : root.isBelow path)
    (hplace : path <+: place) : root.isBelow place := by
  by_cases he : path = place
  · exact he ▸ hpath
  · exact isBelow_trans hpath (isBelow_of_prefix_ne hplace he)

/-- What is below a place is below everything on the way to it. -/
theorem Path.isBelow_prefix_left {path path' place : Path} (hpath : path <+: path')
    (hplace : path'.isBelow place) : path.isBelow place := by
  by_cases he : path = path'
  · exact he ▸ hplace
  · exact isBelow_trans (isBelow_of_prefix_ne hpath he) hplace

namespace FileTree

variable {root path place : Path} {t t' : FileTree}

theorem node?_of_status {node : FileNode} (h : t.status path = .ok node) :
    t.node? path = some node := by
  have hnode := node?_of_walk (status_eq_ok.mp h).2
  rwa [List.nil_append] at hnode

/-- What is there once something was taken away is something else, and was there before. -/
theorem node?_of_erase {node : FileNode} (hnil : place ≠ [])
    (h : (t.erase path).node? place = some node) : place ≠ path ∧ t.node? place = some node := by
  have hplace : place ≠ path := by
    rintro rfl
    rw [node?_erase_self hnil] at h
    cases h
  exact ⟨hplace, (node?_erase hplace).symm.trans h⟩

theorem directory_of_walk {reached way rest : Path} {name : String} {node : FileNode}
    (h : t.walk reached (way ++ name :: rest) = .ok node) :
    t.node? (reached ++ way) = some .directory := by
  induction way generalizing reached with
  | nil =>
      rw [List.append_nil]
      exact (walk_cons_eq_ok.mp h).1
  | cons first way ih =>
      obtain ⟨_, _, hrest⟩ := walk_cons_eq_ok.mp h
      rw [List.append_cons]
      exact ih hrest

/-- What is reached below a place is reached through a directory. -/
theorem directory_of_status {node : FileNode} (h : t.status place = .ok node)
    (hbelow : path.isBelow place) : t.node? path = some .directory := by
  obtain ⟨way, hway, rfl⟩ := Path.isBelow_iff.mp hbelow
  obtain ⟨name, rest, rfl⟩ := List.exists_cons_of_ne_nil hway
  have hdirectory := directory_of_walk (status_eq_ok.mp h).2
  rwa [List.nil_append] at hdirectory

/-- What is reached stays reached while nothing on the way to it changes. -/
theorem status_of_same {node : FileNode} (h : t.status place = .ok node)
    (hsame : ∀ way, way <+: place → t'.node? way = t.node? way) : t'.status place = .ok node := by
  obtain ⟨hlength, hwalk⟩ := status_eq_ok.mp h
  refine status_eq_ok.mpr ⟨hlength, ?_⟩
  rw [← hwalk]
  exact walk_congr fun way hway => hsame way hway

/-! ## Tidy trees -/

/-- Below the root everything is where it can be found. -/
structure Tidy (root : Path) (t : FileTree) : Prop where
  /-- The root is there. -/
  based : t.hasDirectory root
  /-- One thing at most stands at each path. -/
  distinct : ((t.nodes.map Prod.fst).filter root.isBelow).Nodup
  /-- What is there is at a path that a key can spell. -/
  spelled : ∀ place node, root.isBelow place → t.node? place = some node → root.Spells place
  /-- What is there is reached. -/
  reached : ∀ place node, root.isBelow place → t.node? place = some node →
    t.status place = .ok node

namespace Tidy

/-- Where nothing is below the root, all of it is tidy. -/
theorem of_empty (hroot : t.hasDirectory root) (hempty : t.isEmptyBelow root) : Tidy root t where
  based := hroot
  distinct := by
    have hnone : (t.nodes.map Prod.fst).filter root.isBelow = [] := by
      rw [List.filter_eq_nil_iff]
      intro place hplace hbelow
      obtain ⟨entry, hentry, rfl⟩ := List.mem_map.mp hplace
      unfold isEmptyBelow at hempty
      rw [Bool.not_eq_true', List.any_eq_false] at hempty
      exact hempty entry hentry hbelow
    rw [hnone]
    exact List.nodup_nil
  spelled place node hbelow hnode := by
    rw [node?_of_isEmptyBelow hempty hbelow] at hnode
    cases hnode
  reached place node hbelow hnode := by
    rw [node?_of_isEmptyBelow hempty hbelow] at hnode
    cases hnode

/-- Something is put where there is nothing, or a file. -/
theorem put (h : Tidy root t) (hpath : root.Spells path) {u : Unit}
    (hreach : t.reachParent path = .ok u) (hfree : t.node? path ≠ some .directory)
    (node : FileNode) : Tidy root (t.put path node) where
  based := (ConfinedTo.put hpath.under t node).hasDirectory h.based
  distinct := by
    unfold FileTree.put
    dsimp only
    split
    · -- what was there is replaced where it is
      have hsame : (t.nodes.map fun entry => if entry.1 = path then (path, node) else entry).map
          Prod.fst = t.nodes.map Prod.fst := by
        rw [List.map_map]
        refine List.map_congr_left fun entry _ => ?_
        by_cases hentry : entry.1 = path <;> simp [hentry]
      rw [hsame]
      exact h.distinct
    · rename_i hnone
      rw [Option.not_isSome_iff_eq_none, List.lookup_eq_none_iff] at hnone
      have hnew : path ∉ t.nodes.map Prod.fst := by
        intro hmem
        obtain ⟨entry, hentry, rfl⟩ := List.mem_map.mp hmem
        simpa using hnone entry hentry
      have hone : List.filter root.isBelow [path] = [path] :=
        List.filter_eq_self.mpr fun place hplace =>
          List.mem_singleton.mp hplace ▸ hpath.under.isBelow
      rw [List.map_append, List.filter_append, List.map_singleton, hone, List.nodup_append]
      refine ⟨h.distinct, List.nodup_singleton _, ?_⟩
      intro old hold new hnew' he
      rw [List.mem_singleton.mp hnew'] at he
      exact hnew (he ▸ (List.mem_filter.mp hold).1)
  spelled place node' hbelow hnode := by
    have hnil := Path.ne_nil_of_isBelow hpath.under.isBelow
    by_cases hplace : place = path
    · exact hplace ▸ hpath
    · rw [node?_put hnil, if_neg hplace] at hnode
      exact h.spelled place node' hbelow hnode
  reached place node' hbelow hnode := by
    have hnil := Path.ne_nil_of_isBelow hpath.under.isBelow
    by_cases hplace : place = path
    · subst hplace
      rw [node?_put hnil, if_pos rfl] at hnode
      cases hnode
      exact status_put hnil hreach node
    · rw [node?_put hnil, if_neg hplace] at hnode
      have hstatus := h.reached place node' hbelow hnode
      -- the way there does not lead through the path, which is no directory
      refine status_of_same hstatus fun way hway => ?_
      have hother : way ≠ path := by
        rintro rfl
        exact hfree (directory_of_status hstatus (Path.isBelow_of_prefix_ne hway (Ne.symm hplace)))
      rw [node?_put hnil, if_neg hother]

/-- Something is taken away that has nothing below it. -/
theorem erase (h : Tidy root t) (hpath : root.Under path)
    (hempty : ∀ place, path.isBelow place → t.node? place = none) : Tidy root (t.erase path) where
  based := (ConfinedTo.erase hpath t).hasDirectory h.based
  distinct := h.distinct.sublist ((List.filter_sublist.map _).filter _)
  spelled place node hbelow hnode :=
    h.spelled place node hbelow (node?_of_erase (Path.ne_nil_of_isBelow hbelow) hnode).2
  reached place node hbelow hnode := by
    obtain ⟨hplace, hbefore⟩ := node?_of_erase (Path.ne_nil_of_isBelow hbelow) hnode
    refine status_of_same (h.reached place node hbelow hbefore) fun way hway => ?_
    refine node?_erase ?_
    rintro rfl
    cases (hempty place (Path.isBelow_of_prefix_ne hway (Ne.symm hplace))).symm.trans hbefore

/-- There is something below directories only. -/
theorem empty_below (h : Tidy root t) (hpath : root.isBelow path)
    (hnode : t.node? path ≠ some .directory) (place : Path) (hbelow : path.isBelow place) :
    t.node? place = none := by
  have hplace := Path.isBelow_trans hpath hbelow
  cases hthere : t.node? place with
  | none => rfl
  | some node => exact absurd (directory_of_status (h.reached place node hplace hthere) hbelow) hnode

end Tidy

/-! ## Directories on the way to a file -/

/-- Directories were made, one after the other, where there was nothing. -/
inductive Made (root : Path) (t : FileTree) : FileTree → Prop
  /-- None was made. -/
  | none : Made root t t
  /-- One more was made. -/
  | more {t' : FileTree} {path : Path} (h : Made root t t') (hpath : root.Spells path)
    (hreach : t'.reachParent path = .ok ()) (hfree : t'.node? path = none) :
    Made root t (t'.put path .directory)

theorem Made.trans {t₁ t₂ t₃ : FileTree} (h : Made root t₁ t₂) (h' : Made root t₂ t₃) :
    Made root t₁ t₃ := by
  induction h' with
  | none => exact h
  | more _ hpath hreach hfree ih => exact .more ih hpath hreach hfree

theorem Made.hasDirectory (h : Made root t t') (hroot : t.hasDirectory root) :
    t'.hasDirectory root := by
  induction h with
  | none => exact hroot
  | more _ hpath _ _ ih => exact (ConfinedTo.put hpath.under _ .directory).hasDirectory ih

theorem Made.tidy (h : Made root t t') (ht : Tidy root t) : Tidy root t' := by
  induction h with
  | none => exact ht
  | more _ hpath hreach hfree ih => exact ih.put hpath hreach (by simp [hfree]) .directory

theorem made_ensureDirectory (hpath : root.Spells path) (t : FileTree) :
    Made root t (t.ensureDirectory path).1 := by
  unfold ensureDirectory makeDirectory
  cases hreach : t.reachParent path with
  | error cause => exact .none
  | ok _ =>
      dsimp only
      by_cases hthere : (t.node? path).isSome
      · rw [if_pos hthere]
        exact .none
      · rw [if_neg hthere]
        exact Made.none.more hpath hreach (Option.not_isSome_iff_eq_none.mp hthere)

/-- The last directory is tried first, then those above it, and then the last one again. -/
theorem ensureUpwards_cases (name : String) (up : List String) (t : FileTree) :
    (ensureUpwards (name :: up) t).1 = (t.ensureDirectory (name :: up).reverse).1 ∨
      ∃ t₁ t₂, t₁ = (t.ensureDirectory (name :: up).reverse).1 ∧ t₂ = (ensureUpwards up t₁).1 ∧
        ((ensureUpwards (name :: up) t).1 = t₂ ∨
          (ensureUpwards (name :: up) t).1 = (t₂.ensureDirectory (name :: up).reverse).1) := by
  rw [ensureUpwards]
  rcases t.ensureDirectory (name :: up).reverse with ⟨t₁, cause | _⟩
  · cases cause with
    | noEntry =>
        refine .inr ⟨t₁, _, rfl, rfl, ?_⟩
        dsimp only
        rcases ensureUpwards up t₁ with ⟨t₂, fault | _⟩
        · exact .inl rfl
        · dsimp only
          rcases t₂.ensureDirectory (name :: up).reverse with ⟨t₃, cause | _⟩
          · exact .inr rfl
          · exact .inr rfl
    | _ => exact .inl rfl
  · exact .inl rfl

theorem made_ensureUpwards {up : List String} (hup : ∀ name ∈ up, Path.IsSpelled name)
    {t : FileTree} (hroot : t.hasDirectory root) :
    Made root t (ensureUpwards (up ++ root.reverse) t).1 := by
  induction up generalizing t with
  | nil =>
      rw [List.nil_append, ensureUpwards_of_directory hroot]
      exact .none
  | cons name up ih =>
      have hplace : root.Spells (name :: (up ++ root.reverse)).reverse :=
        ⟨up.reverse ++ [name], by simp,
          fun other hother => hup other (by simpa [or_comm] using hother), by simp⟩
      have hfirst := made_ensureDirectory hplace t
      have habove := hfirst.trans (ih (List.forall_mem_cons.mp hup).2 (hfirst.hasDirectory hroot))
      rw [List.cons_append]
      rcases ensureUpwards_cases name (up ++ root.reverse) t with
        he | ⟨t₁, t₂, rfl, rfl, he | he⟩
      · exact he ▸ hfirst
      · exact he ▸ habove
      · exact he ▸ habove.trans (made_ensureDirectory hplace _)

theorem made_ensureDirectories (hroot : t.hasDirectory root) (hpath : root.Spells path) :
    Made root t (t.ensureDirectories path.dropLast).1 := by
  obtain ⟨way, hway, hnames, rfl⟩ := hpath
  unfold ensureDirectories
  rw [List.dropLast_append_of_ne_nil hway, List.reverse_append]
  refine made_ensureUpwards (fun name hname => hnames name ?_) hroot
  exact (List.dropLast_sublist way).mem (List.mem_reverse.mp hname)

end FileTree

end PluginRegistry
