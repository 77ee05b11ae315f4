import PluginRegistry.Proofs.ArtifactKeys
import Mathlib.Data.String.Basic

/-!
# What a store of files reports

Whatever goes wrong while artifacts are stored, loaded and removed should reach the caller as an
error of storage for the key that was asked for, and a key under which there is nothing should be
passed over when it is removed. Storing keeps to this. Loading and removing keep to it as long as
the path can be looked for: a name on it that is too long, or a path that is too long as a whole,
comes out as the bare fault of the file system. And a key with a null character in it, or with a
half that no name can have, is refused before there is a path at all.

`Artifacts.Slips` tells these and nothing else, in terms of the tree as it is before.
-/

namespace PluginRegistry

namespace FileTree

variable {t : FileTree} {reached path : Path}

/-! ## Walks that end early -/

/-- A walk ends at a name that is too long just if directories lead to it. -/
theorem walk_eq_nameTooLong :
    t.walk reached path = .error .nameTooLong ↔
      ∃ way name rest, path = way ++ name :: rest ∧ t.walk reached way = .ok .directory ∧
        nameLimit < Text.octetLength name := by
  constructor
  · intro h
    induction path generalizing reached with
    | nil =>
        rw [walk_nil] at h
        split at h
        · cases h
        · cases h
    | cons first rest ih =>
        rw [walk_cons] at h
        split at h
        · cases h
        · cases h
        · rename_i hhere
          split at h
          · rename_i hfirst
            exact ⟨[], first, rest, rfl, walk_nil_eq_ok.mpr hhere, hfirst⟩
          · rename_i hfirst
            obtain ⟨way, name, rest', rfl, hway, hname⟩ := ih h
            exact ⟨first :: way, name, rest', rfl,
              walk_cons_eq_ok.mpr ⟨hhere, Nat.le_of_not_lt hfirst, hway⟩, hname⟩
  · rintro ⟨way, name, rest, rfl, hway, hname⟩
    rw [walk_append _ hway, walk_cons_of_directory _ _ (node?_of_walk hway), if_pos hname]

/-- **Nothing can be looked for at the path**: it is too long as a whole, or directories lead to a
name on it that is too long. -/
inductive Overlong (t : FileTree) (path : Path) : Prop
  | whole (h : pathLimit < Text.octetLength path.text)
  | name {way : Path} {name : String} {rest : Path} (hpath : path = way ++ name :: rest)
    (hway : t.walk [] way = .ok .directory) (hname : nameLimit < Text.octetLength name)

theorem status_eq_nameTooLong : t.status path = .error .nameTooLong ↔ t.Overlong path := by
  unfold status
  split
  · rename_i hlength
    exact ⟨fun _ => .whole hlength, fun _ => rfl⟩
  · rename_i hlength
    rw [walk_eq_nameTooLong]
    constructor
    · rintro ⟨way, name, rest, hpath, hway, hname⟩
      exact .name hpath hway hname
    · rintro (hwhole | ⟨hpath, hway, hname⟩)
      · exact absurd hwhole hlength
      · exact ⟨_, _, _, hpath, hway, hname⟩

end FileTree

/-! ## Errors of storage -/

/-- The operation that an access is. -/
def Access.operation : Access → StorageOperation
  | .store _ _ => .store
  | .load _ => .load
  | .delete _ => .delete

/-- The fault is an error of storage for the key that was asked for, and names the operation, or
the step before it that every operation has. -/
def StoreFault.Reports (fault : StoreFault) (access : Access) : Prop :=
  ∃ cause operation, fault = .error (.artifact cause access.key operation) ∧
    (operation = .resolve ∨ operation = access.operation)

namespace Artifacts

open FileTree

variable {root path : Path} {t : FileTree} {key : String} {content : List UInt8}
  {fault : StoreFault}

/-- **The access fails with a fault that is no error of storage.** -/
inductive Slips (root : Path) (t : FileTree) : Access → StoreFault → Prop
  /-- Some component of the key cannot be looked up. -/
  | name {access : Access} {fault : NameFault} (h : root.nameFault? access.key = some fault) :
    Slips root t access (.name fault)
  /-- An artifact that is to be loaded cannot be looked for. -/
  | load {key : String} {path : Path} (hpath : pathOf root key = .ok path)
    (hlong : t.Overlong path) : Slips root t (.load key) (.file ⟨.nameTooLong, path.text⟩)
  /-- Nor can one that is to be removed. -/
  | delete {key : String} {path : Path} (hpath : pathOf root key = .ok path)
    (hlong : t.Overlong path) : Slips root t (.delete key) (.file ⟨.nameTooLong, path.text⟩)

theorem Slips.not_reports {access : Access} (h : Slips root t access fault) :
    ¬fault.Reports access := by
  rintro ⟨cause, operation, hfault, _⟩
  cases h with
  | name _ => cases hfault
  | load _ _ => cases hfault
  | delete _ _ => cases hfault

/-- Once there is a path, what keeps an artifact from being stored is reported. -/
theorem reports_of_store (hpath : pathOf root key = .ok path)
    (h : (store root key content t).1 = .error fault) : fault.Reports (.store key content) := by
  unfold store at h
  rw [hpath] at h
  dsimp only at h
  split at h
  · cases h
    exact ⟨_, _, rfl, .inr rfl⟩
  · split at h
    · cases h
      exact ⟨_, _, rfl, .inr rfl⟩
    · cases h

/-- What is loaded depends on what stands at the path. -/
theorem load_eq_outcome (hpath : pathOf root key = .ok path) :
    load root key t = outcome key path (t.status path) := by
  rw [load_of_pathOf hpath, FileTree.status]

theorem load_eq_ok (hpath : pathOf root key = .ok path) :
    load root key t = .ok content ↔ t.status path = .ok (.file content) := by
  rw [load_eq_outcome hpath]
  cases t.status path with
  | ok node => cases node <;> simp [outcome]
  | error cause => cases cause <;> simp [outcome]

/-- An artifact that is not loaded is reported, unless its path is too long. -/
theorem fault_of_load (hpath : pathOf root key = .ok path)
    (h : load root key t = .error fault) :
    fault.Reports (.load key) ∨
      (t.Overlong path ∧ fault = .file ⟨.nameTooLong, path.text⟩) := by
  rw [load_eq_outcome hpath] at h
  cases hstatus : t.status path with
  | ok node =>
      rw [hstatus] at h
      cases node with
      | directory =>
          cases h
          exact .inl ⟨_, _, rfl, .inr rfl⟩
      | file content => cases h
  | error cause =>
      rw [hstatus] at h
      cases cause with
      | nameTooLong =>
          cases h
          exact .inr ⟨status_eq_nameTooLong.mp hstatus, rfl⟩
      | _ =>
          cases h
          exact .inl ⟨_, _, rfl, .inr rfl⟩

/-- Where nothing can be looked for, removing fails as the file system does. -/
theorem delete_of_overlong (hpath : pathOf root key = .ok path) (hlong : t.Overlong path) :
    delete root key t = (.error (.file ⟨.nameTooLong, path.text⟩), t, []) := by
  unfold delete FileTree.probe
  rw [hpath]
  dsimp only
  rw [status_eq_nameTooLong.mpr hlong]

/-- Where nothing is found, removing has nothing to do. -/
theorem delete_of_missing (hpath : pathOf root key = .ok path)
    (hnone : ∀ node, t.status path ≠ .ok node) (hlong : ¬t.Overlong path) :
    delete root key t = (.ok (), t, []) := by
  unfold delete FileTree.probe
  rw [hpath]
  dsimp only
  cases hstatus : t.status path with
  | ok node => exact absurd hstatus (hnone node)
  | error cause =>
      cases cause with
      | nameTooLong => exact absurd (status_eq_nameTooLong.mp hstatus) hlong
      | _ => rfl

/-- What keeps an artifact from being removed is reported, unless its path is too long. -/
theorem fault_of_delete (hpath : pathOf root key = .ok path)
    (h : (delete root key t).1 = .error fault) :
    fault.Reports (.delete key) ∨
      (t.Overlong path ∧ fault = .file ⟨.nameTooLong, path.text⟩) := by
  by_cases hlong : t.Overlong path
  · rw [delete_of_overlong hpath hlong] at h
    cases h
    exact .inr ⟨hlong, rfl⟩
  · by_cases hthere : ∃ node, t.status path = .ok node
    · obtain ⟨node, hnode⟩ := hthere
      unfold delete FileTree.probe at h
      rw [hpath] at h
      dsimp only at h
      rw [hnode] at h
      cases node with
      | directory =>
          cases h
          exact .inl ⟨_, _, rfl, .inr rfl⟩
      | file content => cases h
    · rw [delete_of_missing hpath (not_exists.mp hthere) hlong] at h
      cases h

/-! ## What is not reported -/

theorem slips_of_answer {access : Access} (h : ((inDirectory root).answer access t).1 = .error fault)
    (hreports : ¬fault.Reports access) : Slips root t access fault := by
  cases hnames : root.nameFault? access.key with
  | some nameFault =>
      rw [answer_of_pathOf_error access (pathOf_of_nameFault hnames)] at h
      cases h
      exact .name hnames
  | none =>
      by_cases hbelow : root.isBelow (root.resolve access.key)
      · have hpath := pathOf_eq_ok.mpr ⟨hnames, rfl, hbelow⟩
        cases access with
        | store key content =>
            change (store root key content t).1.map (fun _ => none) = .error fault at h
            exact absurd (reports_of_store hpath (error_of_map h)) hreports
        | load key =>
            change (load root key t).map some = .error fault at h
            obtain ⟨hlong, rfl⟩ := (fault_of_load hpath (error_of_map h)).resolve_left hreports
            exact .load hpath hlong
        | delete key =>
            change (delete root key t).1.map (fun _ => none) = .error fault at h
            obtain ⟨hlong, rfl⟩ := (fault_of_delete hpath (error_of_map h)).resolve_left hreports
            exact .delete hpath hlong
      · -- a key that leads elsewhere is reported by the step before every operation
        rw [answer_of_pathOf_error access (pathOf_eq_error hnames hbelow)] at h
        cases h
        exact absurd ⟨_, _, rfl, .inl rfl⟩ hreports

theorem answer_of_slips {access : Access} (h : Slips root t access fault) :
    (inDirectory root).answer access t = (.error fault, t, []) := by
  cases h with
  | name hfault => exact answer_of_pathOf_error access (pathOf_of_nameFault hfault) t
  | @load key path hpath hlong =>
      have hload : load root key t = .error (.file ⟨.nameTooLong, path.text⟩) := by
        rw [load_eq_outcome hpath, status_eq_nameTooLong.mpr hlong]
        rfl
      show ((load root key t).map some, t, []) = _
      rw [hload]
      rfl
  | @delete key path hpath hlong =>
      show ((delete root key t).1.map _, (delete root key t).2) = _
      rw [delete_of_overlong hpath hlong]
      rfl

/-- **Faults are errors of storage, but for those that slip.** An access fails otherwise just if its
key cannot be looked up, or if it is to load or to remove something whose path is too long to be
looked for. A key cannot be looked up just if it has a null character, or a half that no name can
have. What is loaded is the content that stands at the path. And removing what is not there does
nothing, unless its path is too long. -/
theorem fault_slips_iff (root : Path) (t : FileTree) :
    (∀ key : String, ('\x00' ∈ key.toList ∨ Text.nameless? key ≠ none) ↔
      ∃ fault, root.nameFault? key = some fault) ∧
    (∀ access fault,
      (((inDirectory root).answer access t).1 = .error fault ∧ ¬fault.Reports access) ↔
        Slips root t access fault) ∧
    (∀ key content, load root key t = .ok content ↔
      ∃ path, pathOf root key = .ok path ∧ t.status path = .ok (.file content)) ∧
    ∀ key path, pathOf root key = .ok path → (∀ node, t.status path ≠ .ok node) →
      (delete root key t = (.ok (), t, []) ∧ ¬t.Overlong path) ∨
        (delete root key t = (.error (.file ⟨.nameTooLong, path.text⟩), t, []) ∧
          t.Overlong path) := by
  refine ⟨fun key => ?_, fun access fault => ⟨fun h => slips_of_answer h.1 h.2, fun h => ?_⟩,
    fun key content => ⟨fun h => ?_, ?_⟩, fun key path hpath hnone => ?_⟩
  · rw [← Option.ne_none_iff_exists', ne_eq, ne_eq, Path.nameFault?_eq_none, not_and_or, not_not]
  · rw [answer_of_slips h]
    exact ⟨rfl, h.not_reports⟩
  · obtain ⟨path, hpath⟩ : ∃ path, pathOf root key = .ok path := by
      unfold load at h
      split at h
      · cases h
      · exact ⟨_, ‹_›⟩
    exact ⟨path, hpath, (load_eq_ok hpath).mp h⟩
  · rintro ⟨path, hpath, hstatus⟩
    exact (load_eq_ok hpath).mpr hstatus
  · by_cases hlong : t.Overlong path
    · exact .inr ⟨delete_of_overlong hpath hlong, hlong⟩
    · exact .inl ⟨delete_of_missing hpath hnone hlong, hlong⟩

/-- A key with more octets than a name may have. -/
def longKey : String := String.ofList (List.replicate 256 'n')

theorem octetLength_longKey : Text.octetLength longKey = 256 := by
  unfold Text.octetLength longKey
  rw [String.utf8ByteSize_ofList]
  decide +kernel

theorem isSpelled_longKey : Path.IsSpelled longKey := by
  have hletter : ∀ c ∈ longKey.toList, c = 'n' := by
    unfold longKey
    rw [String.toList_ofList]
    exact fun c hc => List.eq_of_mem_replicate hc
  have hother : ∀ name : String, Text.octetLength name < 256 → longKey ≠ name := by
    rintro name hname rfl
    rw [octetLength_longKey] at hname
    omega
  exact ⟨⟨hother _ (by decide), hother _ (by decide), hother _ (by decide),
    fun hc => absurd (hletter _ hc) (by decide)⟩, fun hc => absurd (hletter _ hc) (by decide),
    Text.firstRefused?_eq_none.mpr fun c hc => by rw [hletter c hc]; decide⟩

/-- There is nothing under the long key, and yet it is not passed over, nor is that reported. -/
theorem fault_slips_iff_longKey :
    (delete ["srv", "store"] longKey besideSecrets).1
        = .error (.file ⟨.nameTooLong, Path.text ["srv", "store", longKey]⟩) ∧
    ¬(StoreFault.file ⟨.nameTooLong, Path.text ["srv", "store", longKey]⟩).Reports
      (.delete longKey) := by
  have hpath : pathOf ["srv", "store"] longKey = .ok ["srv", "store", longKey] := by
    have hspelled : pathOf ["srv", "store"] ("/".intercalate [longKey])
        = .ok (["srv", "store"] ++ [longKey]) :=
      pathOf_intercalate (List.cons_ne_nil _ _) (by simpa using isSpelled_longKey)
    rwa [String.intercalate_singleton] at hspelled
  have hroot : besideSecrets.hasDirectory ["srv", "store"] := by decide
  have hlong : besideSecrets.Overlong ["srv", "store", longKey] := by
    refine .name (show _ = ["srv", "store"] ++ [longKey] from rfl)
      (hasDirectory_iff.mp hroot).2 ?_
    rw [octetLength_longKey]
    decide
  have hslips := ((fault_slips_iff ["srv", "store"] besideSecrets).2.1 (.delete longKey) _).mpr
    (.delete hpath hlong)
  refine ⟨?_, hslips.2⟩
  rw [delete_of_overlong hpath hlong]

end Artifacts

end PluginRegistry
