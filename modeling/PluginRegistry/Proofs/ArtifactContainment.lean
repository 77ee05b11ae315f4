import PluginRegistry.Proofs.TreeConfinement

/-!
# Artifacts stay below their root

Whatever is asked of a store of files, under whatever key, what changes lies under the root. And
what is answered depends on what lies below the root only: two trees that are the same there, and
have a directory for a root, give the same answer and are the same there afterwards. A key that
leads elsewhere is refused, with nothing done.

The root itself has to be there. It is made with the store, and no access takes it away.
-/

namespace PluginRegistry

/-! ## Accesses -/

/-- What can be asked of a store of artifacts. -/
inductive Access where
  | store (key : String) (content : List UInt8)
  | load (key : String)
  | delete (key : String)

/-- The key that is asked for. -/
def Access.key : Access → String
  | .store key _ | .load key | .delete key => key

/-- What a store answers, with the content if one was to be loaded. -/
def ArtifactStore.answer {σ : Type} (s : ArtifactStore σ) :
    Access → σ → StoreAnswer σ (Option (List UInt8))
  | .store key content, state =>
    let stored := s.store key content state
    (stored.1.map fun _ => none, stored.2)
  | .load key, state => ((s.load key state).map some, state, [])
  | .delete key, state =>
    let deleted := s.delete key state
    (deleted.1.map fun _ => none, deleted.2)

/-- What is told of a result does not make it fail. -/
theorem error_of_map {ε α β : Type} {result : Except ε α} {f : α → β} {e : ε}
    (h : result.map f = .error e) : result = .error e := by
  cases result with
  | ok _ => cases h
  | error _ => exact congrArg Except.error (Except.error.inj h)

namespace Artifacts

variable {root path : Path} {t t' : FileTree} {key : String}

theorem under_of_pathOf (h : pathOf root key = .ok path) : root.Under path := by
  obtain ⟨-, rfl, hbelow⟩ := pathOf_eq_ok.mp h
  exact Path.under_of_resolve hbelow

theorem confined_dropParent (hpath : root.Under path) (t : FileTree) :
    FileTree.ConfinedTo root t (dropParent root path t) := by
  unfold dropParent
  split
  · rename_i hdropped
    exact .erase (hpath.dropLast.resolve_left hdropped.1) t
  · exact .refl root t

theorem sameBelow_dropParent (h : FileTree.SameBelow root t t') (hpath : root.Under path) :
    FileTree.SameBelow root (dropParent root path t) (dropParent root path t') := by
  have hprefix : root <+: path.dropLast := by
    obtain ⟨way, hway, _, rfl⟩ := hpath
    rw [List.dropLast_append_of_ne_nil hway]
    exact List.prefix_append _ _
  unfold dropParent
  rw [h.isEmptyBelow hprefix]
  split
  · rename_i hdropped
    exact h.erase (hpath.dropLast.resolve_left hdropped.1)
  · exact h

theorem confined_store (hroot : t.hasDirectory root) (key : String) (content : List UInt8) :
    FileTree.ConfinedTo root t (store root key content t).2.1 := by
  unfold store
  split
  · exact .refl root t
  · rename_i path hpath
    have hunder := under_of_pathOf hpath
    have hdirectories := FileTree.confined_ensureDirectories hroot hunder
    split
    · rename_i hensure
      rw [hensure] at hdirectories
      exact hdirectories
    · rename_i hensure
      rw [hensure] at hdirectories
      split
      · exact hdirectories
      · rename_i hwrite
        exact hdirectories.trans (FileTree.confined_write hunder hwrite)

theorem confined_delete (root : Path) (key : String) (t : FileTree) :
    FileTree.ConfinedTo root t (delete root key t).2.1 := by
  unfold delete
  split
  · exact .refl root t
  · rename_i path hpath
    have hunder := under_of_pathOf hpath
    split
    · exact .refl root t
    · exact .refl root t
    · exact .refl root t
    · exact (FileTree.ConfinedTo.erase hunder t).trans (confined_dropParent hunder _)

/-- What an access changes is under the root. -/
theorem confined_answer (hroot : t.hasDirectory root) (access : Access) :
    FileTree.ConfinedTo root t ((inDirectory root).answer access t).2.1 := by
  cases access with
  | store key content => exact confined_store hroot key content
  | load key => exact .refl root t
  | delete key => exact confined_delete root key t

/-- Two answers that differ in nothing but what lies elsewhere than below the root. -/
structure SameAnswer {α : Type} (root : Path) (x x' : StoreAnswer FileTree α) : Prop where
  /-- The results are the same. -/
  result : x'.1 = x.1
  /-- So are the entries for the log. -/
  entries : x'.2.2 = x.2.2
  /-- And so are the trees, below the root. -/
  trees : FileTree.SameBelow root x.2.1 x'.2.1

theorem sameAnswer_store (h : FileTree.SameBelow root t t') (key : String) (content : List UInt8) :
    SameAnswer root (store root key content t) (store root key content t') := by
  unfold store
  cases hpath : pathOf root key with
  | error fault => exact ⟨rfl, rfl, h⟩
  | ok path =>
      have hunder := under_of_pathOf hpath
      obtain ⟨t₁, t₁', answer, hensure, hensure', h₁⟩ := h.ensureDirectories hunder
      dsimp only
      rw [hensure, hensure']
      rcases answer with fault | _
      · exact ⟨rfl, rfl, h₁⟩
      · dsimp only
        rcases h₁.write hunder content with ⟨fault, hw, hw'⟩ | ⟨u, u', hw, hw', h₂⟩
        · rw [hw, hw']
          exact ⟨rfl, rfl, h₁⟩
        · rw [hw, hw']
          exact ⟨rfl, rfl, h₂⟩

theorem load_eq_of_sameBelow (h : FileTree.SameBelow root t t') (key : String) :
    load root key t' = load root key t := by
  unfold load
  cases hpath : pathOf root key with
  | error fault => rfl
  | ok path =>
      dsimp only
      rw [h.probe (under_of_pathOf hpath)]

theorem sameAnswer_delete (h : FileTree.SameBelow root t t') (key : String) :
    SameAnswer root (delete root key t) (delete root key t') := by
  unfold delete
  cases hpath : pathOf root key with
  | error fault => exact ⟨rfl, rfl, h⟩
  | ok path =>
      have hunder := under_of_pathOf hpath
      dsimp only
      rw [h.probe hunder]
      split
      · exact ⟨rfl, rfl, h⟩
      · exact ⟨rfl, rfl, h⟩
      · exact ⟨rfl, rfl, h⟩
      · exact ⟨rfl, rfl, sameBelow_dropParent (h.erase hunder) hunder⟩

/-- What is answered depends on what is below the root only. -/
theorem sameAnswer (h : FileTree.SameBelow root t t') (access : Access) :
    SameAnswer root ((inDirectory root).answer access t) ((inDirectory root).answer access t') := by
  cases access with
  | store key content =>
      have hstore := sameAnswer_store h key content
      exact ⟨congrArg (Except.map fun _ => none) hstore.result, hstore.entries, hstore.trees⟩
  | load key => exact ⟨congrArg (Except.map some) (load_eq_of_sameBelow h key), rfl, h⟩
  | delete key =>
      have hdelete := sameAnswer_delete h key
      exact ⟨congrArg (Except.map fun _ => none) hdelete.result, hdelete.entries, hdelete.trees⟩

/-- A key that has no path below the root is refused, with nothing done. -/
theorem answer_of_pathOf_error {fault : StoreFault} (access : Access)
    (h : pathOf root access.key = .error fault) (t : FileTree) :
    (inDirectory root).answer access t = (.error fault, t, []) := by
  cases access with
  | store key content =>
      change pathOf root key = .error fault at h
      show ((store root key content t).1.map _, (store root key content t).2) = _
      rw [store_of_pathOf_error h]
      rfl
  | load key =>
      change pathOf root key = .error fault at h
      show ((load root key t).map some, t, []) = _
      rw [load_of_pathOf_error h]
      rfl
  | delete key =>
      change pathOf root key = .error fault at h
      show ((delete root key t).1.map _, (delete root key t).2) = _
      rw [delete_of_pathOf_error h]
      rfl

/-! ## Containment -/

/-- Where a store was made, its root is there. -/
theorem hasDirectory_of_makeRoot {directory : Path} {text : String}
    (h : makeRoot directory text t = (t', .ok root)) : t'.hasDirectory root := by
  unfold makeRoot at h
  split at h
  · cases h
  · dsimp only at h
    split at h
    · rename_i hensure
      cases h
      have hroot := FileTree.hasDirectory_of_ensureUpwards hensure
      rw [List.reverse_reverse] at hroot
      exact hroot
    · cases h

/-- The tree after some accesses, one after the other. -/
def afterAccesses (root : Path) (accesses : List Access) (t : FileTree) : FileTree :=
  accesses.foldl (fun t access => ((inDirectory root).answer access t).2.1) t

/-- From when the store was made, the root is there, and whatever changes is under it. -/
theorem contained_since_made {directory : Path} {text : String} {t₀ : FileTree}
    (h : makeRoot directory text t₀ = (t, .ok root)) (accesses : List Access) :
    (afterAccesses root accesses t).hasDirectory root ∧
      FileTree.ConfinedTo root t (afterAccesses root accesses t) := by
  have hruns : ∀ t, t.hasDirectory root →
      FileTree.ConfinedTo root t (afterAccesses root accesses t) := by
    induction accesses with
    | nil => exact fun t _ => .refl root t
    | cons access rest ih =>
        intro t hroot
        have hfirst := confined_answer hroot access
        exact hfirst.trans (ih _ (hfirst.hasDirectory hroot))
  have hroot := hasDirectory_of_makeRoot h
  exact ⟨(hruns t hroot).hasDirectory hroot, hruns t hroot⟩

/-- **Every access stays below the root.** Only places under the root change. The answer depends on
what is below the root and on nothing else. A key that leads elsewhere is refused when its path is
resolved, or before that if it cannot be looked up, for a null character or for a half that no name
can have, and nothing is done. -/
theorem access_contained (hroot : t.hasDirectory root) (access : Access) :
    FileTree.ConfinedTo root t ((inDirectory root).answer access t).2.1 ∧
    (∀ t', FileTree.SameBelow root t t' → SameAnswer root ((inDirectory root).answer access t)
      ((inDirectory root).answer access t')) ∧
    ('\x00' ∉ access.key.toList → Text.nameless? access.key = none →
      ¬root.isBelow (root.resolve access.key) →
      (inDirectory root).answer access t
        = (.error (.error (.artifact .outsideRoot access.key .resolve)), t, [])) ∧
    ('\x00' ∈ access.key.toList → Text.nameless? access.key = none →
      (inDirectory root).answer access t = (.error (.name .nullCharacter), t, [])) ∧
    (Text.nameless? access.key ≠ none →
      ∃ fault, (inDirectory root).answer access t = (.error (.name fault), t, [])) := by
  refine ⟨confined_answer hroot access, fun t' h => sameAnswer h access, ?_, ?_, ?_⟩
  · intro hnull hhalves hkey
    have hnames : root.nameFault? access.key = none :=
      Path.nameFault?_eq_none.mpr ⟨hnull, hhalves⟩
    exact answer_of_pathOf_error access (pathOf_eq_error hnames hkey) t
  · intro hnull hhalves
    have hfault : root.nameFault? access.key = some .nullCharacter :=
      Path.nameFault?_of_null hnull hhalves
    exact answer_of_pathOf_error access (pathOf_of_nameFault hfault) t
  · intro hhalves
    obtain ⟨fault, hfault⟩ : ∃ fault, root.nameFault? access.key = some fault :=
      Option.ne_none_iff_exists'.mp fun hnames => hhalves (Path.nameFault?_eq_none.mp hnames).2
    exact ⟨fault, answer_of_pathOf_error access (pathOf_of_nameFault hfault) t⟩

/-- The directories `/srv/store` and `/etc`, and a file in the second one. -/
def besideSecrets : FileTree :=
  ⟨[(["srv"], .directory), (["srv", "store"], .directory), (["etc"], .directory),
    (["etc", "secret"], .file [83])]⟩

/-- A key that climbs out of the root and back in is stored below the root, and one that climbs out
of it is not even deleted. -/
theorem access_contained_climbing :
    FileTree.ConfinedTo ["srv", "store"] besideSecrets
      ((inDirectory ["srv", "store"]).answer (.store "../store/a/../b/c.zip" [80, 75])
        besideSecrets).2.1 ∧
    ((inDirectory ["srv", "store"]).answer (.store "../store/a/../b/c.zip" [80, 75])
      besideSecrets).2.1.node? ["srv", "store", "b", "c.zip"] = some (.file [80, 75]) ∧
    (inDirectory ["srv", "store"]).answer (.delete "../../etc/secret") besideSecrets
      = (.error (.error (.artifact .outsideRoot "../../etc/secret" .resolve)),
        besideSecrets, []) := by
  have hroot : besideSecrets.hasDirectory ["srv", "store"] := by decide
  have hpath : pathOf ["srv", "store"] "../store/a/../b/c.zip"
      = .ok ["srv", "store", "b", "c.zip"] :=
    pathOf_eq_ok.mpr (by decide +kernel)
  refine ⟨(access_contained hroot _).1, ?_, ?_⟩
  · show (store ["srv", "store"] _ _ besideSecrets).2.1.node? _ = _
    unfold store
    rw [hpath]
    decide
  · exact (access_contained hroot (.delete "../../etc/secret")).2.2.1 (by decide)
      (by decide) (by decide +kernel)

end Artifacts

end PluginRegistry
