import PluginRegistry.Proofs.ArtifactRemoval
import PluginRegistry.Proofs.TextPieces

/-!
# Changes below a root

A text is followed from a place by going up for a while and then down by names, so a place that is
reached below a root is under it: the way there goes down at every step. Of the ways to change a
tree, each is confined to places under the root if it works on such a place, and it does the same to
two trees that are the same below the root. For both, the root has to be a directory; else it would
be made along with what is to stand below it.
-/

namespace PluginRegistry

/-! ## Ways down -/

namespace Path

/-- The component names something in a directory. -/
structure IsName (component : String) : Prop where
  /-- It is not empty. -/
  present : component ≠ ""
  /-- It is not the directory itself. -/
  point : component ≠ "."
  /-- It is not the directory above. -/
  points : component ≠ ".."
  /-- It is one component. -/
  plain : '/' ∉ component.toList

/-- The way from the root to the place goes down, by at least one name. -/
def Under (root place : Path) : Prop :=
  ∃ way, way ≠ [] ∧ (∀ name ∈ way, IsName name) ∧ place = root ++ way

theorem isBelow_iff {root place : Path} :
    root.isBelow place ↔ ∃ way, way ≠ [] ∧ place = root ++ way := by
  rw [isBelow, Bool.and_eq_true, List.isPrefixOf_iff_prefix, decide_eq_true_iff]
  constructor
  · rintro ⟨⟨way, rfl⟩, hlength⟩
    refine ⟨way, ?_, rfl⟩
    rintro rfl
    rw [List.append_nil] at hlength
    exact Nat.lt_irrefl _ hlength
  · rintro ⟨way, hway, rfl⟩
    rw [List.length_append]
    have := List.length_pos_iff.mpr hway
    exact ⟨List.prefix_append _ _, by omega⟩

theorem Under.isBelow {root place : Path} (h : root.Under place) : root.isBelow place := by
  obtain ⟨way, hway, _, hplace⟩ := h
  exact isBelow_iff.mpr ⟨way, hway, hplace⟩

theorem not_isBelow_of_prefix {root place : Path} (h : place <+: root) :
    ¬root.isBelow place := by
  intro hbelow
  obtain ⟨way, hway, rfl⟩ := isBelow_iff.mp hbelow
  have hle := h.length_le
  rw [List.length_append] at hle
  have := List.length_pos_iff.mpr hway
  omega

theorem ne_nil_of_isBelow {root place : Path} (h : root.isBelow place) : place ≠ [] := by
  rintro rfl
  exact not_isBelow_of_prefix List.nil_prefix h

/-- The path is some of the way to the root, and then names. -/
def Traced (root path : Path) : Prop :=
  ∃ kept names, kept <+: root ∧ (∀ name ∈ names, IsName name) ∧ path = kept ++ names

theorem Traced.step {root path : Path} {piece : String} (h : root.Traced path)
    (hpiece : '/' ∉ piece.toList) : root.Traced (path.step piece) := by
  obtain ⟨kept, names, hkept, hnames, rfl⟩ := h
  unfold Path.step
  by_cases hstay : piece = "" ∨ piece = "."
  · rw [if_pos hstay]
    exact ⟨kept, names, hkept, hnames, rfl⟩
  · rw [if_neg hstay]
    by_cases hup : piece = ".."
    · rw [if_pos hup]
      -- up from the last name, or from what is kept if there are no names
      by_cases hnone : names = []
      · subst hnone
        rw [List.append_nil]
        exact ⟨kept.dropLast, [], (List.dropLast_prefix _).trans hkept, nofun,
          (List.append_nil _).symm⟩
      · exact ⟨kept, names.dropLast, hkept, fun name hname => hnames name
          ((List.dropLast_sublist _).mem hname), List.dropLast_append_of_ne_nil hnone⟩
    · rw [if_neg hup]
      obtain ⟨hpresent, hpoint⟩ := not_or.mp hstay
      refine ⟨kept, names ++ [piece], hkept, fun name hname => ?_, List.append_assoc _ _ _⟩
      rcases List.mem_append.mp hname with hname | hname
      · exact hnames name hname
      · rw [List.mem_singleton.mp hname]
        exact ⟨hpresent, hpoint, hup, hpiece⟩

/-- Following a text leads up for a while, and then down by names. -/
theorem traced_resolve (root : Path) (text : String) : root.Traced (root.resolve text) := by
  have hsteps : ∀ (pieces : List String) (path : Path), (∀ piece ∈ pieces, '/' ∉ piece.toList) →
      root.Traced path → root.Traced (pieces.foldl Path.step path) := by
    intro pieces
    induction pieces with
    | nil => exact fun path _ h => h
    | cons piece rest ih =>
        intro path hpieces h
        obtain ⟨hpiece, hrest⟩ := List.forall_mem_cons.mp hpieces
        exact ih _ hrest (h.step hpiece)
  have hplain : ∀ piece ∈ Text.split '/' text, '/' ∉ piece.toList := by
    intro piece hpiece
    obtain ⟨cs, hcs, rfl⟩ := List.mem_map.mp hpiece
    rw [String.toList_ofList]
    exact Text.notMem_of_mem_splitAt hcs
  refine hsteps _ _ hplain ?_
  unfold Path.origin
  split
  · exact ⟨[], [], List.nil_prefix, nofun, rfl⟩
  · exact ⟨root, [], List.prefix_refl _, nofun, (List.append_nil _).symm⟩

/-- A text that leads below the root leads there by names. -/
theorem under_of_resolve {root : Path} {text : String} (h : root.isBelow (root.resolve text)) :
    root.Under (root.resolve text) := by
  obtain ⟨kept, names, ⟨dropped, rfl⟩, hnames, hresolve⟩ := traced_resolve root text
  obtain ⟨way, hway, hplace⟩ := isBelow_iff.mp h
  -- what was dropped on the way up was followed down again
  have hdown : names = dropped ++ way := by
    rw [hresolve, List.append_assoc] at hplace
    exact List.append_cancel_left hplace
  refine ⟨way, hway, fun name hname => hnames name ?_, hplace⟩
  rw [hdown]
  exact List.mem_append_right _ hname

/-- Names lead down, here from the last one on. -/
theorem under_of_names {root : Path} {name : String} {up : List String}
    (hup : ∀ other ∈ name :: up, IsName other) :
    root.Under (name :: (up ++ root.reverse)).reverse := by
  refine ⟨up.reverse ++ [name], by simp, fun other hother => hup other ?_, by simp⟩
  simpa [or_comm] using hother

/-- The place above one that is under the root is the root or under it as well. -/
theorem Under.dropLast {root place : Path} (h : root.Under place) :
    place.dropLast = root ∨ root.Under place.dropLast := by
  obtain ⟨way, hway, hnames, rfl⟩ := h
  rw [List.dropLast_append_of_ne_nil hway]
  by_cases hone : way.dropLast = []
  · rw [hone, List.append_nil]
    exact .inl rfl
  · refine .inr ⟨way.dropLast, hone, fun name hname => ?_, rfl⟩
    exact hnames name ((List.dropLast_sublist _).mem hname)

end Path

namespace FileTree

variable {root path place : Path} {t t' : FileTree}

/-! ## What is put into a tree -/

theorem lookup_change (nodes : List (Path × FileNode)) (path q : Path) (node : FileNode) :
    (nodes.map fun entry => if entry.1 = path then (path, node) else entry).lookup q =
      if q = path then (nodes.lookup path).map fun _ => node else nodes.lookup q := by
  induction nodes with
  | nil => simp
  | cons entry rest ih =>
      obtain ⟨there, old⟩ := entry
      rw [List.map_cons]
      by_cases hthere : there = path
      · subst hthere
        rw [if_pos rfl, List.lookup_cons, ih, List.lookup_cons, List.lookup_cons]
        by_cases hq : q = there
        · subst hq
          simp
        · simp [hq, beq_eq_false_iff_ne.mpr hq]
      · rw [if_neg hthere, List.lookup_cons, ih, List.lookup_cons, List.lookup_cons,
          beq_eq_false_iff_ne.mpr (Ne.symm hthere)]
        by_cases hq : q = there
        · subst hq
          simp [hthere]
        · simp [beq_eq_false_iff_ne.mpr hq]

theorem lookup_put (t : FileTree) (path q : Path) (node : FileNode) :
    (t.put path node).nodes.lookup q = if q = path then some node else t.nodes.lookup q := by
  unfold put
  dsimp only
  split
  · rename_i hsome
    obtain ⟨old, hold⟩ := Option.isSome_iff_exists.mp hsome
    rw [lookup_change, hold]
    rfl
  · rename_i hnone
    rw [Option.not_isSome_iff_eq_none] at hnone
    rw [List.lookup_append, List.lookup_cons, List.lookup_nil]
    by_cases hq : q = path
    · subst hq
      simp [hnone]
    · simp [hq, beq_eq_false_iff_ne.mpr hq]

theorem node?_put {q : Path} (hpath : path ≠ []) (node : FileNode) :
    (t.put path node).node? q = if q = path then some node else t.node? q := by
  unfold node?
  rw [lookup_put]
  by_cases hq : q = path
  · subst hq
    simp [hpath]
  · simp [hq]

theorem isEmptyBelow_iff {directory : Path} :
    t.isEmptyBelow directory ↔ ∀ q, directory.isBelow q → t.node? q = none := by
  constructor
  · exact fun h q hq => node?_of_isEmptyBelow h hq
  · intro h
    unfold isEmptyBelow
    rw [Bool.not_eq_true', List.any_eq_false]
    intro entry hentry hbelow
    have hnone := h entry.1 hbelow
    unfold node? at hnone
    rw [if_neg (by simpa using Path.ne_nil_of_isBelow hbelow), List.lookup_eq_none_iff] at hnone
    simpa using hnone entry hentry

theorem status_eq_ok {node : FileNode} :
    t.status path = .ok node ↔
      Text.octetLength path.text ≤ pathLimit ∧ t.walk [] path = .ok node := by
  unfold status
  by_cases hlength : pathLimit < Text.octetLength path.text
  · rw [if_pos hlength]
    exact iff_of_false nofun fun h => absurd hlength (Nat.not_lt.mpr h.1)
  · rw [if_neg hlength]
    exact (and_iff_right (Nat.le_of_not_lt hlength)).symm

theorem hasDirectory_iff :
    t.hasDirectory path ↔
      Text.octetLength path.text ≤ pathLimit ∧ t.walk [] path = .ok .directory := by
  unfold hasDirectory status
  by_cases hlength : pathLimit < Text.octetLength path.text
  · rw [if_pos hlength]
    simpa using fun h => absurd hlength (Nat.not_lt.mpr h)
  · rw [if_neg hlength]
    have hle := Nat.le_of_not_lt hlength
    cases t.walk [] path with
    | error cause => simp [hle]
    | ok node => cases node <;> simp [hle]

/-! ## Changes below the root -/

/-- What is not as before is under the root. -/
def ConfinedTo (root : Path) (t t' : FileTree) : Prop :=
  ∀ place, t'.node? place ≠ t.node? place → root.Under place

namespace ConfinedTo

theorem refl (root : Path) (t : FileTree) : ConfinedTo root t t := fun _ h => absurd rfl h

theorem trans {t₁ t₂ t₃ : FileTree} (h : ConfinedTo root t₁ t₂) (h' : ConfinedTo root t₂ t₃) :
    ConfinedTo root t₁ t₃ := by
  intro place hplace
  by_cases hsame : t₂.node? place = t₁.node? place
  · exact h' place (hsame ▸ hplace)
  · exact h place hsame

theorem put (h : root.Under path) (t : FileTree) (node : FileNode) :
    ConfinedTo root t (t.put path node) := by
  intro place hplace
  by_cases hsame : place = path
  · exact hsame ▸ h
  · rw [node?_put (Path.ne_nil_of_isBelow h.isBelow), if_neg hsame] at hplace
    exact absurd rfl hplace

theorem erase (h : root.Under path) (t : FileTree) : ConfinedTo root t (t.erase path) := by
  intro place hplace
  by_cases hsame : place = path
  · exact hsame ▸ h
  · exact absurd (node?_erase hsame) hplace

/-- The root stays as it is. -/
theorem hasDirectory (h : ConfinedTo root t t') (hroot : t.hasDirectory root) :
    t'.hasDirectory root := by
  obtain ⟨hlength, hwalk⟩ := hasDirectory_iff.mp hroot
  refine hasDirectory_iff.mpr ⟨hlength, ?_⟩
  rw [← hwalk]
  refine walk_congr fun way hway => Classical.byContradiction fun hchanged => ?_
  exact Path.not_isBelow_of_prefix hway (h _ hchanged).isBelow

end ConfinedTo

theorem confined_ensureDirectory (h : root.Under path) (t : FileTree) :
    ConfinedTo root t (t.ensureDirectory path).1 := by
  unfold ensureDirectory makeDirectory
  cases t.reachParent path with
  | error cause => exact .refl root t
  | ok _ =>
      dsimp only
      by_cases hthere : (t.node? path).isSome
      · rw [if_pos hthere]
        exact .refl root t
      · rw [if_neg hthere]
        exact .put h t .directory

/-- A directory that is there is not made again. -/
theorem ensureDirectory_of_directory (h : t.hasDirectory path) :
    t.ensureDirectory path = (t, .ok ()) := by
  have hthere := node?_of_walk (hasDirectory_iff.mp h).2
  rw [List.nil_append] at hthere
  unfold ensureDirectory makeDirectory
  cases t.reachParent path with
  | error cause =>
      dsimp only
      rw [if_pos h]
  | ok _ =>
      dsimp only
      rw [hthere]
      dsimp only [Option.isSome_some]
      rw [if_pos rfl]
      dsimp only
      rw [if_pos h]

theorem ensureUpwards_of_directory (h : t.hasDirectory root) :
    ensureUpwards root.reverse t = (t, .ok ()) := by
  cases hup : root.reverse with
  | nil => rfl
  | cons name up =>
      have hroot : (name :: up).reverse = root := by rw [← hup, List.reverse_reverse]
      rw [ensureUpwards, hroot, ensureDirectory_of_directory h]

/-- Where the root is there, directories are made below it only. -/
theorem confined_ensureUpwards (hroot : t.hasDirectory root) {up : List String}
    (hup : ∀ name ∈ up, Path.IsName name) :
    ConfinedTo root t (ensureUpwards (up ++ root.reverse) t).1 := by
  induction up generalizing t with
  | nil =>
      rw [List.nil_append, ensureUpwards_of_directory hroot]
      exact .refl root t
  | cons name up ih =>
      have hplace := @Path.under_of_names root name up hup
      have hfirst := confined_ensureDirectory hplace t
      rw [List.cons_append, ensureUpwards]
      split
      · rename_i hensure
        rw [hensure] at hfirst
        exact hfirst
      · -- the directory above is missing, and made first
        rename_i hensure
        rw [hensure] at hfirst
        have habove := hfirst.trans (ih (hfirst.hasDirectory hroot) (List.forall_mem_cons.mp hup).2)
        split
        · rename_i hupwards
          rw [hupwards] at habove
          exact habove
        · rename_i hupwards
          rw [hupwards] at habove
          have hlast := habove.trans (confined_ensureDirectory hplace _)
          split
          · rename_i hensure
            rw [hensure] at hlast
            exact hlast
          · rename_i hensure
            rw [hensure] at hlast
            exact hlast
      · rename_i hensure
        rw [hensure] at hfirst
        exact hfirst

/-! ## Directories that were made -/

theorem reachParent_eq_ok {u : Unit} (h : t.reachParent path = .ok u) :
    Text.octetLength path.text ≤ pathLimit ∧ t.walk [] path.dropLast = .ok .directory ∧
      Text.octetLength (path.getLast?.getD "") ≤ nameLimit := by
  unfold reachParent at h
  split at h
  · cases h
  · rename_i hlength
    split at h
    · cases h
    · cases h
    · rename_i hparent
      split at h
      · cases h
      · rename_i hname
        exact ⟨Nat.le_of_not_lt hlength, hparent, Nat.le_of_not_lt hname⟩

/-- Something put where a new name can stand is reached. -/
theorem status_put {u : Unit} (hnil : path ≠ []) (h : t.reachParent path = .ok u)
    (node : FileNode) : (t.put path node).status path = .ok node := by
  obtain ⟨hlength, hparent, hname⟩ := reachParent_eq_ok h
  obtain ⟨parent, name, rfl⟩ : ∃ parent name, path = parent ++ [name] :=
    ⟨_, _, (List.dropLast_concat_getLast hnil).symm⟩
  rw [List.dropLast_concat] at hparent
  rw [List.getLast?_concat] at hname
  have hway : (t.put (parent ++ [name]) node).walk [] parent = .ok .directory := by
    rw [← hparent]
    refine walk_congr fun way hway => ?_
    have hother : [] ++ way ≠ parent ++ [name] := by
      intro heq
      have hle := hway.length_le
      rw [← List.nil_append way, heq, List.length_append, List.length_singleton] at hle
      omega
    rw [node?_put hnil, if_neg hother]
  refine status_eq_ok.mpr ⟨hlength, ?_⟩
  rw [walk_append _ hway, walk_cons_eq_ok]
  refine ⟨node?_of_walk hway, hname, walk_nil_eq_ok.mpr ?_⟩
  rw [List.nil_append, node?_put hnil, if_pos rfl]

theorem hasDirectory_of_makeDirectory (hnil : path ≠ []) (h : t.makeDirectory path = .ok t') :
    t'.hasDirectory path := by
  unfold makeDirectory at h
  split at h
  · cases h
  · rename_i hreach
    split at h
    · cases h
    · cases h
      exact hasDirectory_iff.mpr (status_eq_ok.mp (status_put hnil hreach .directory))

theorem hasDirectory_of_ensureDirectory (hnil : path ≠ [])
    (h : t.ensureDirectory path = (t', .ok ())) : t'.hasDirectory path := by
  unfold ensureDirectory at h
  split at h
  · rename_i hmake
    cases h
    exact hasDirectory_of_makeDirectory hnil hmake
  · obtain ⟨rfl, hthere⟩ := Prod.mk.inj h
    split at hthere
    · assumption
    · cases hthere

/-- A directory that was made with those above it is there. -/
theorem hasDirectory_of_ensureUpwards {up : List String}
    (h : ensureUpwards up t = (t', .ok ())) : t'.hasDirectory up.reverse := by
  cases up with
  | nil => exact hasDirectory_iff.mpr ⟨by decide, rfl⟩
  | cons name up =>
      have hnil : (name :: up).reverse ≠ [] := by simp
      rw [ensureUpwards] at h
      split at h
      · rename_i hensure
        cases h
        exact hasDirectory_of_ensureDirectory hnil hensure
      · split at h
        · cases h
        · split at h
          · rename_i hensure
            cases h
            exact hasDirectory_of_ensureDirectory hnil hensure
          · cases h
      · cases h

/-! ## Trees that are the same below the root -/

/-- In both trees the root is a directory, and below it they are the same. -/
structure SameBelow (root : Path) (t t' : FileTree) : Prop where
  /-- In the first tree the root is there. -/
  here : t.hasDirectory root
  /-- In the second one it is, too. -/
  there : t'.hasDirectory root
  /-- What is below the root is the same. -/
  below : ∀ place, root.isBelow place → t'.node? place = t.node? place

/-- The answers are the same, and so are the trees below the root. -/
def SameOutcome {α : Type} (root : Path) (x x' : FileTree × α) : Prop :=
  ∃ t t' answer, x = (t, answer) ∧ x' = (t', answer) ∧ SameBelow root t t'

namespace SameBelow

theorem refl (h : t.hasDirectory root) : SameBelow root t t := ⟨h, h, fun _ _ => rfl⟩

theorem put (h : SameBelow root t t') (hpath : root.Under path) (node : FileNode) :
    SameBelow root (t.put path node) (t'.put path node) where
  here := (ConfinedTo.put hpath t node).hasDirectory h.here
  there := (ConfinedTo.put hpath t' node).hasDirectory h.there
  below place hplace := by
    have hnil := Path.ne_nil_of_isBelow hpath.isBelow
    rw [node?_put hnil, node?_put hnil, h.below place hplace]

theorem erase (h : SameBelow root t t') (hpath : root.Under path) :
    SameBelow root (t.erase path) (t'.erase path) where
  here := (ConfinedTo.erase hpath t).hasDirectory h.here
  there := (ConfinedTo.erase hpath t').hasDirectory h.there
  below place hplace := by
    by_cases hsame : place = path
    · subst hsame
      have hnil := Path.ne_nil_of_isBelow hplace
      rw [node?_erase_self hnil, node?_erase_self hnil]
    · rw [node?_erase hsame, node?_erase hsame, h.below place hplace]

/-- Walks that go through the root end alike. -/
theorem walk (h : SameBelow root t t') (way : Path) :
    t'.walk [] (root ++ way) = t.walk [] (root ++ way) := by
  have hhere := (hasDirectory_iff.mp h.here).2
  have hthere := (hasDirectory_iff.mp h.there).2
  rw [walk_append way hhere, walk_append way hthere, List.nil_append]
  refine walk_congr fun before _ => ?_
  by_cases hbefore : before = []
  · rw [hbefore, List.append_nil]
    have hroot := node?_of_walk hhere
    have hroot' := node?_of_walk hthere
    rw [List.nil_append] at hroot hroot'
    rw [hroot, hroot']
  · exact h.below _ (Path.isBelow_iff.mpr ⟨before, hbefore, rfl⟩)

theorem status (h : SameBelow root t t') (hpath : root.Under path) :
    t'.status path = t.status path := by
  obtain ⟨way, _, _, rfl⟩ := hpath
  unfold FileTree.status
  rw [h.walk]

theorem probe (h : SameBelow root t t') (hpath : root.Under path) :
    t'.probe path = t.probe path := by
  unfold FileTree.probe
  rw [h.status hpath]

theorem hasDirectory (h : SameBelow root t t') (hpath : root.Under path) :
    t'.hasDirectory path = t.hasDirectory path := by
  unfold FileTree.hasDirectory
  rw [h.status hpath]

theorem reachParent (h : SameBelow root t t') (hpath : root.Under path) :
    t'.reachParent path = t.reachParent path := by
  obtain ⟨way, hway, _, rfl⟩ := hpath
  unfold FileTree.reachParent
  rw [List.dropLast_append_of_ne_nil hway, h.walk]

theorem isEmptyBelow (h : SameBelow root t t') {directory : Path} (hroot : root <+: directory) :
    t'.isEmptyBelow directory = t.isEmptyBelow directory := by
  rw [Bool.eq_iff_iff, isEmptyBelow_iff, isEmptyBelow_iff]
  refine forall_congr' fun q => imp_congr_right fun hq => ?_
  -- below the directory is below the root
  obtain ⟨way, hway, rfl⟩ := Path.isBelow_iff.mp hq
  obtain ⟨between, rfl⟩ := hroot
  rw [h.below]
  refine Path.isBelow_iff.mpr ⟨between ++ way, ?_, List.append_assoc _ _ _⟩
  exact fun hnil => hway (List.append_eq_nil_iff.mp hnil).2

theorem ensureDirectory (h : SameBelow root t t') (hpath : root.Under path) :
    SameOutcome root (t.ensureDirectory path) (t'.ensureDirectory path) := by
  unfold FileTree.ensureDirectory makeDirectory
  rw [h.reachParent hpath, h.hasDirectory hpath, h.below path hpath.isBelow]
  cases t.reachParent path with
  | error cause => exact ⟨t, t', _, rfl, rfl, h⟩
  | ok _ =>
      dsimp only
      by_cases hthere : (t.node? path).isSome
      · rw [if_pos hthere, if_pos hthere]
        exact ⟨t, t', _, rfl, rfl, h⟩
      · rw [if_neg hthere, if_neg hthere]
        exact ⟨_, _, _, rfl, rfl, h.put hpath .directory⟩

theorem ensureUpwards (h : SameBelow root t t') {up : List String}
    (hup : ∀ name ∈ up, Path.IsName name) :
    SameOutcome root (FileTree.ensureUpwards (up ++ root.reverse) t)
      (FileTree.ensureUpwards (up ++ root.reverse) t') := by
  induction up generalizing t t' with
  | nil =>
      rw [List.nil_append, ensureUpwards_of_directory h.here, ensureUpwards_of_directory h.there]
      exact ⟨t, t', _, rfl, rfl, h⟩
  | cons name up ih =>
      have hplace := @Path.under_of_names root name up hup
      obtain ⟨t₁, t₁', answer, hfirst, hfirst', h₁⟩ := h.ensureDirectory hplace
      rw [List.cons_append, FileTree.ensureUpwards, FileTree.ensureUpwards, hfirst, hfirst']
      rcases answer with cause | _
      · cases cause with
        | noEntry =>
            -- the directory above is missing, and made first
            obtain ⟨t₂, t₂', answer, habove, habove', h₂⟩ := ih h₁ (List.forall_mem_cons.mp hup).2
            dsimp only
            rw [habove, habove']
            rcases answer with fault | _
            · exact ⟨t₂, t₂', _, rfl, rfl, h₂⟩
            · obtain ⟨t₃, t₃', answer, hlast, hlast', h₃⟩ := h₂.ensureDirectory hplace
              dsimp only
              rw [hlast, hlast']
              rcases answer with cause | _
              · exact ⟨t₃, t₃', _, rfl, rfl, h₃⟩
              · exact ⟨t₃, t₃', _, rfl, rfl, h₃⟩
        | _ => exact ⟨t₁, t₁', _, rfl, rfl, h₁⟩
      · exact ⟨t₁, t₁', _, rfl, rfl, h₁⟩

end SameBelow

/-! ## Directories on the way -/

theorem confined_ensureDirectories (hroot : t.hasDirectory root) (hpath : root.Under path) :
    ConfinedTo root t (t.ensureDirectories path.dropLast).1 := by
  obtain ⟨way, hway, hnames, rfl⟩ := hpath
  unfold ensureDirectories
  rw [List.dropLast_append_of_ne_nil hway, List.reverse_append]
  refine confined_ensureUpwards hroot fun name hname => hnames name ?_
  exact (List.dropLast_sublist way).mem (List.mem_reverse.mp hname)

theorem SameBelow.ensureDirectories (h : SameBelow root t t') (hpath : root.Under path) :
    SameOutcome root (t.ensureDirectories path.dropLast) (t'.ensureDirectories path.dropLast) := by
  obtain ⟨way, hway, hnames, rfl⟩ := hpath
  unfold FileTree.ensureDirectories
  rw [List.dropLast_append_of_ne_nil hway, List.reverse_append]
  refine h.ensureUpwards fun name hname => hnames name ?_
  exact (List.dropLast_sublist way).mem (List.mem_reverse.mp hname)

theorem confined_write {content : List UInt8} (hpath : root.Under path)
    (h : t.write path content = .ok t') : ConfinedTo root t t' := by
  unfold FileTree.write at h
  split at h
  · cases h
  · split at h
    · cases h
    · cases h
      exact .put hpath t (.file content)

theorem SameBelow.write (h : SameBelow root t t') (hpath : root.Under path)
    (content : List UInt8) :
    (∃ fault, t.write path content = .error fault ∧ t'.write path content = .error fault) ∨
      ∃ u u', t.write path content = .ok u ∧ t'.write path content = .ok u' ∧
        SameBelow root u u' := by
  unfold FileTree.write
  rw [h.reachParent hpath, h.below path hpath.isBelow]
  split
  · exact .inl ⟨_, rfl, rfl⟩
  · split
    · exact .inl ⟨_, rfl, rfl⟩
    · exact .inr ⟨_, _, rfl, rfl, h.put hpath (.file content)⟩

end FileTree

end PluginRegistry
