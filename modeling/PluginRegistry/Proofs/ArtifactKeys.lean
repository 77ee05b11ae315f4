import PluginRegistry.Proofs.ArtifactContainment
import PluginRegistry.Proofs.ArtifactFrame

/-!
# Which paths a key can spell

A key that leads below the root leads there by names, each of them a piece of the key. Joining these
names gives a key again, the plainest one for that path. So the paths that keys lead to and the
paths that can be listed as keys are the same, and a key that is listed leads back to where it was
found.
-/

namespace PluginRegistry

/-! ## Ways that can be spelled -/

namespace Path

/-- The component names something in a directory, and can stand in a key. -/
structure IsSpelled (component : String) : Prop extends IsName component where
  /-- It has no null character. -/
  written : '\x00' ∉ component.toList
  /-- It has no half but those that a name can have. -/
  named : Text.nameless? component = none

/-- The place is reached from the root by components that a key can spell. -/
def Spells (root place : Path) : Prop :=
  ∃ way, way ≠ [] ∧ (∀ name ∈ way, IsSpelled name) ∧ place = root ++ way

theorem Spells.under {root place : Path} (h : root.Spells place) : root.Under place := by
  obtain ⟨way, hway, hnames, hplace⟩ := h
  exact ⟨way, hway, fun name hname => (hnames name hname).toIsName, hplace⟩

theorem foldl_step_names {names : List String} (h : ∀ name ∈ names, IsName name) (path : Path) :
    names.foldl step path = path ++ names := by
  induction names generalizing path with
  | nil => exact (List.append_nil path).symm
  | cons name rest ih =>
      obtain ⟨hname, hrest⟩ := List.forall_mem_cons.mp h
      rw [List.foldl_cons, Artifacts.step_name hname.present hname.point hname.points,
        ih hrest, List.append_assoc, List.singleton_append]

/-- Names that are joined lead down by just these names. -/
theorem resolve_intercalate (root : Path) {way : List String} (hway : way ≠ [])
    (h : ∀ name ∈ way, IsName name) : root.resolve ("/".intercalate way) = root ++ way := by
  have hstart : ("/".intercalate way).startsWith "/" = false := by
    obtain ⟨name, rest, rfl⟩ := List.exists_cons_of_ne_nil hway
    have hname := h name List.mem_cons_self
    obtain ⟨c, cs, hchars⟩ := List.exists_cons_of_ne_nil
      fun hnil => hname.present (String.toList_eq_nil_iff.mp hnil)
    have hc : '/' ≠ c := fun he => hname.plain (hchars ▸ he ▸ List.mem_cons_self)
    have hkey : ∃ more, ("/".intercalate (name :: rest)).toList = c :: more := by
      rw [String.toList_intercalate, List.map_cons, hchars]
      cases rest with
      | nil => exact ⟨cs, by simp [List.intercalate_singleton]⟩
      | cons next rest => exact ⟨_, by rw [List.map_cons, List.intercalate_cons_cons]; rfl⟩
    obtain ⟨more, hmore⟩ := hkey
    rw [String.startsWith_string_eq_false_iff, hmore]
    exact fun hprefix => hc (List.cons_prefix_cons.mp hprefix).1
  unfold resolve origin
  rw [Text.split_intercalate hway fun name hname => (h name hname).plain, hstart]
  exact foldl_step_names h root

/-- Following components leads up for a while, and then down by some of them. -/
theorem foldl_step_prefix (pieces : List String) (path : Path) :
    ∃ kept names, kept <+: path ∧ names ⊆ pieces ∧ pieces.foldl step path = kept ++ names := by
  induction pieces generalizing path with
  | nil => exact ⟨path, [], List.prefix_refl _, List.nil_subset _, (List.append_nil _).symm⟩
  | cons piece rest ih =>
      obtain ⟨kept, names, hkept, hnames, hpath⟩ := ih (path.step piece)
      have hnames' : names ⊆ piece :: rest := List.subset_cons_of_subset _ hnames
      rw [List.foldl_cons, hpath]
      unfold step at hkept
      split at hkept
      · exact ⟨kept, names, hkept, hnames', rfl⟩
      · split at hkept
        · exact ⟨kept, names, hkept.trans (List.dropLast_prefix _), hnames', rfl⟩
        · rcases List.prefix_concat_iff.mp hkept with rfl | hkept
          · exact ⟨path, piece :: names, List.prefix_refl _, List.cons_subset_cons _ hnames,
              by simp⟩
          · exact ⟨kept, names, hkept, hnames', rfl⟩

/-- A way below the root is made of components of the text. -/
theorem subset_of_resolve {root : Path} {text : String} {way : List String}
    (h : root.resolve text = root ++ way) : way ⊆ Text.split '/' text := by
  obtain ⟨kept, names, hkept, hnames, hpath⟩ :=
    foldl_step_prefix (Text.split '/' text) (root.origin text)
  have hroot : kept <+: root := by
    unfold origin at hkept
    split at hkept
    · rw [List.prefix_nil.mp hkept]
      exact List.nil_prefix
    · exact hkept
  obtain ⟨dropped, rfl⟩ := hroot
  unfold resolve at h
  rw [hpath, List.append_assoc] at h
  have hsame := List.append_cancel_left h
  exact fun name hname => hnames (hsame ▸ List.mem_append_right _ hname)

end Path

namespace Artifacts

variable {root path : Path} {key : String}

/-- What a key means is spelled. -/
theorem spells_of_pathOf (h : pathOf root key = .ok path) : root.Spells path := by
  obtain ⟨way, hway, hnames, rfl⟩ := under_of_pathOf h
  obtain ⟨hfault, hresolve, -⟩ := pathOf_eq_ok.mp h
  have hpieces := Path.firstFault?_eq_none.mp hfault
  -- a name is a component of the key, and every component of it could be looked up
  refine ⟨way, hway, fun name hname => ?_, rfl⟩
  obtain ⟨hwritten, hnamed⟩ := hpieces name (Path.subset_of_resolve hresolve hname)
  exact ⟨hnames name hname, hwritten, hnamed⟩

/-- What is spelled is meant by a key. -/
theorem pathOf_intercalate {way : List String} (hway : way ≠ [])
    (h : ∀ name ∈ way, Path.IsSpelled name) :
    pathOf root ("/".intercalate way) = .ok (root ++ way) := by
  have hnames : ∀ name ∈ way, Path.IsName name := fun name hname => (h name hname).toIsName
  refine pathOf_eq_ok.mpr ⟨Path.firstFault?_eq_none.mpr ?_,
    Path.resolve_intercalate root hway hnames, Path.isBelow_iff.mpr ⟨way, hway, rfl⟩⟩
  -- the components of the key are the names
  rw [Text.split_intercalate hway fun name hname => (hnames name hname).plain]
  exact fun name hname => ⟨(h name hname).written, (h name hname).named⟩

end Artifacts

end PluginRegistry
