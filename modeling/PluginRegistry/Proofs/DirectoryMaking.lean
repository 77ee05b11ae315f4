import PluginRegistry.Proofs.StorageErrors
import PluginRegistry.Proofs.TidyTrees

/-!
# Which directories are made

A directory is made with those on the way to it that are missing. That goes up from its last
component until there is a directory to stand in, and then down again. So where the way is there up
to some place and nothing is from there on, the first missing directory is made in any case; and all
of them are, unless a name among them is too long.
-/

namespace PluginRegistry

/-- A path is no shorter than a part of the way to it. -/
theorem Path.octetLength_text_le {way place : Path} (h : way <+: place) :
    Text.octetLength way.text ≤ Text.octetLength place.text := by
  obtain ⟨rest, rfl⟩ := h
  have hjoined : ∀ way : List String,
      ("/".intercalate way).utf8ByteSize ≤ ("/".intercalate (way ++ rest)).utf8ByteSize := by
    intro way
    induction way with
    | nil => simp
    | cons name way ih =>
        cases way with
        | nil =>
            cases rest with
            | nil => simp
            | cons next rest =>
                rw [List.singleton_append, String.intercalate_singleton,
                  String.intercalate_cons_cons, String.utf8ByteSize_append,
                  String.utf8ByteSize_append]
                omega
        | cons next way =>
            rw [List.cons_append, List.cons_append, String.intercalate_cons_cons,
              String.intercalate_cons_cons, String.utf8ByteSize_append, String.utf8ByteSize_append,
              String.utf8ByteSize_append, String.utf8ByteSize_append]
            rw [List.cons_append] at ih
            omega
  unfold Text.octetLength text
  rw [String.utf8ByteSize_append, String.utf8ByteSize_append]
  have := hjoined way
  omega

namespace FileTree

variable {root path place way rest reached : Path} {name : String} {t t' : FileTree}

/-! ## Missing directories -/

/-- From a place that is there, a walk ends at nothing just if directories lead to a name that is
not there. -/
theorem walk_eq_noEntry {node : FileNode} (hhere : t.node? reached = some node) :
    t.walk reached path = .error .noEntry ↔
      ∃ way name rest, path = way ++ name :: rest ∧ t.walk reached way = .ok .directory ∧
        Text.octetLength name ≤ nameLimit ∧ t.node? (reached ++ way ++ [name]) = none := by
  constructor
  · intro h
    induction path generalizing reached node with
    | nil =>
        rw [walk_nil, hhere] at h
        cases h
    | cons first rest ih =>
        rw [walk_cons] at h
        split at h
        · rename_i hnone
          cases hnone.symm.trans hhere
        · cases h
        · rename_i hdirectory
          split at h
          · cases h
          · rename_i hfirst
            have hfirst := Nat.le_of_not_lt hfirst
            cases hnext : t.node? (reached ++ [first]) with
            | none =>
                exact ⟨[], first, rest, rfl, walk_nil_eq_ok.mpr hdirectory, hfirst, by simpa⟩
            | some next =>
                obtain ⟨way, name, rest', rfl, hway, hname, hnone⟩ := ih hnext h
                refine ⟨first :: way, name, rest', rfl,
                  walk_cons_eq_ok.mpr ⟨hdirectory, hfirst, hway⟩, hname, ?_⟩
                rwa [List.append_cons reached first way]
  · rintro ⟨way, name, rest, rfl, hway, hname, hnone⟩
    rw [walk_append _ hway, walk_cons_of_directory _ _ (node?_of_walk hway),
      if_neg (Nat.not_lt.mpr hname), walk_of_missing _ hnone]

/-- **The way is there up to a name that is missing.** -/
structure Breaks (t : FileTree) (way : Path) (name : String) : Prop where
  /-- Directories lead to where the name would be. -/
  there : t.walk [] way = .ok .directory
  /-- There is nothing of that name. -/
  missing : t.node? (way ++ [name]) = none
  /-- There could be. -/
  short : Text.octetLength name ≤ nameLimit

theorem Breaks.walk (h : t.Breaks way name) (rest : Path) :
    t.walk [] (way ++ name :: rest) = .error .noEntry := by
  have hhere : t.node? [] = some .directory := rfl
  refine (walk_eq_noEntry hhere).mpr ⟨way, name, rest, rfl, h.there, h.short, ?_⟩
  rw [List.nil_append]
  exact h.missing

theorem breaks_of_walk (h : t.walk [] path = .error .noEntry) :
    ∃ way name rest, path = way ++ name :: rest ∧ t.Breaks way name := by
  have hhere : t.node? [] = some .directory := rfl
  obtain ⟨way, name, rest, hpath, hthere, hshort, hmissing⟩ := (walk_eq_noEntry hhere).mp h
  rw [List.nil_append] at hmissing
  exact ⟨way, name, rest, hpath, hthere, hmissing, hshort⟩

theorem reachParent_of_walk (hlength : Text.octetLength (way ++ [name]).text ≤ pathLimit)
    (hway : t.walk [] way = .ok .directory) (hname : Text.octetLength name ≤ nameLimit) :
    t.reachParent (way ++ [name]) = .ok () := by
  unfold reachParent
  rw [if_neg (Nat.not_lt.mpr hlength), List.dropLast_concat, hway, List.getLast?_concat]
  exact if_neg (Nat.not_lt.mpr hname)

/-- Where a name can stand, every name on the way is short enough. -/
theorem names_of_walk {node : FileNode} (h : t.walk reached path = .ok node) :
    ∀ name ∈ path, Text.octetLength name ≤ nameLimit := by
  induction path generalizing reached with
  | nil => exact fun name hname => absurd hname List.not_mem_nil
  | cons first rest ih =>
      obtain ⟨_, hfirst, hrest⟩ := walk_cons_eq_ok.mp h
      exact List.forall_mem_cons.mpr ⟨hfirst, ih hrest⟩

/-! ## One directory -/

theorem ensureDirectory_of_reach {u : Unit} (hreach : t.reachParent path = .ok u)
    (hfree : t.node? path = none) :
    t.ensureDirectory path = (t.put path .directory, .ok ()) := by
  unfold ensureDirectory makeDirectory
  rw [hreach]
  dsimp only
  rw [hfree]
  rfl

theorem node?_ensureDirectory (hnil : path ≠ []) (h : place ≠ path) :
    (t.ensureDirectory path).1.node? place = t.node? place := by
  unfold ensureDirectory makeDirectory
  cases t.reachParent path with
  | error cause => rfl
  | ok _ =>
      dsimp only
      by_cases hthere : (t.node? path).isSome
      · rw [if_pos hthere]
      · rw [if_neg hthere]
        show (t.put path .directory).node? place = _
        rw [node?_put hnil, if_neg h]

/-- If the directory cannot be made, and not for want of the one above, all stays as it is. -/
theorem ensureDirectory_cases (path : Path) (t : FileTree) :
    (t.reachParent path = .ok () ∧ t.node? path = none) ∨
      (t.reachParent path = .error .noEntry) ∨
      (∃ answer, t.ensureDirectory path = (t, answer) ∧ answer ≠ .error .noEntry) := by
  unfold ensureDirectory makeDirectory
  cases hreach : t.reachParent path with
  | ok _ =>
      dsimp only
      cases hnode : t.node? path with
      | none => exact .inl ⟨rfl, rfl⟩
      | some node =>
          refine .inr (.inr ⟨_, rfl, ?_⟩)
          split
          · nofun
          · nofun
  | error cause =>
      cases cause with
      | noEntry => exact .inr (.inl rfl)
      | _ =>
          refine .inr (.inr ⟨_, rfl, ?_⟩)
          split
          · nofun
          · nofun

/-! ## All directories on the way -/

/-- Only what is on the way is made. -/
theorem node?_ensureUpwards {up : List String} (h : ¬place <+: up.reverse) (t : FileTree) :
    (ensureUpwards up t).1.node? place = t.node? place := by
  induction up generalizing t with
  | nil => rfl
  | cons name up ih =>
      have hnil : (name :: up).reverse ≠ [] := by simp
      have hself : place ≠ (name :: up).reverse := by
        rintro rfl
        exact h (List.prefix_refl _)
      have habove : ¬place <+: up.reverse := by
        intro hplace
        refine h (hplace.trans ?_)
        rw [List.reverse_cons]
        exact List.prefix_append _ _
      rcases ensureUpwards_cases name up t with he | ⟨t₁, t₂, rfl, rfl, he | he⟩
      · rw [he, node?_ensureDirectory hnil hself]
      · rw [he, ih habove, node?_ensureDirectory hnil hself]
      · rw [he, node?_ensureDirectory hnil hself, ih habove, node?_ensureDirectory hnil hself]

/-- If the directory above is missing, it is made first. -/
theorem ensureDirectories_of_missing
    (hlength : Text.octetLength (way ++ [name]).text ≤ pathLimit)
    (hway : t.walk [] way = .error .noEntry) :
    t.ensureDirectories (way ++ [name]) =
      match t.ensureDirectories way with
      | (t, .error fault) => (t, .error fault)
      | (t, .ok ()) =>
        match t.ensureDirectory (way ++ [name]) with
        | (t, .ok ()) => (t, .ok ())
        | (t, .error cause) => (t, .error ⟨cause, (way ++ [name]).text⟩) := by
  have hreach : t.reachParent (way ++ [name]) = .error .noEntry := by
    unfold reachParent
    rw [if_neg (Nat.not_lt.mpr hlength), List.dropLast_concat, hway]
  have hnone : t.hasDirectory (way ++ [name]) = false := by
    rw [Bool.eq_false_iff]
    intro hthere
    cases (walk_of_append (hasDirectory_iff.mp hthere).2).symm.trans hway
  have hfirst : t.ensureDirectory (way ++ [name]) = (t, .error .noEntry) := by
    unfold ensureDirectory makeDirectory
    rw [hreach]
    dsimp only
    rw [hnone]
    rfl
  unfold ensureDirectories
  rewrite [List.reverse_append, List.reverse_singleton, List.singleton_append, ensureUpwards,
    List.reverse_cons, List.reverse_reverse, hfirst]
  rfl

/-- **The first missing directory is made**, and all of them are unless a name is too long. -/
theorem Breaks.made (h : t.Breaks way name)
    (hnone : ∀ place, (way ++ [name]).isBelow place → t.node? place = none)
    (hlength : Text.octetLength (way ++ name :: rest).text ≤ pathLimit) :
    (t.ensureDirectories (way ++ name :: rest)).1.node? (way ++ [name]) = some .directory ∧
      ((∀ other ∈ rest, Text.octetLength other ≤ nameLimit) →
        (t.ensureDirectories (way ++ name :: rest)).2 = .ok ()) := by
  -- from the last name back to the missing one
  induction rest using List.reverseRecOn with
  | nil =>
      have hmade := ensureDirectory_of_reach (reachParent_of_walk hlength h.there h.short) h.missing
      have hensure : t.ensureDirectories (way ++ [name])
          = (t.put (way ++ [name]) .directory, .ok ()) := by
        unfold ensureDirectories
        rw [List.reverse_append, List.reverse_singleton, List.singleton_append, ensureUpwards,
          List.reverse_cons, List.reverse_reverse, hmade]
      rw [hensure]
      refine ⟨?_, fun _ => rfl⟩
      rw [node?_put (by simp), if_pos rfl]
  | append_singleton rest last ih =>
      have hpath : way ++ name :: (rest ++ [last]) = (way ++ name :: rest) ++ [last] := by simp
      rw [hpath] at hlength ⊢
      obtain ⟨hfirst, hall⟩ :=
        ih (Nat.le_trans (Path.octetLength_text_le (List.prefix_append _ _)) hlength)
      have hlast : way ++ [name] ≠ way ++ name :: rest ++ [last] := by
        intro he
        have := congrArg List.length he
        simp only [List.length_append, List.length_cons, List.length_nil] at this
        omega
      rw [ensureDirectories_of_missing hlength (h.walk rest)]
      rcases hensure : t.ensureDirectories (way ++ name :: rest) with ⟨t₁, fault | _⟩
      · rw [hensure] at hfirst hall
        refine ⟨hfirst, fun hshort => ?_⟩
        cases hall fun other hother => hshort other (List.mem_append_left _ hother)
      · rw [hensure] at hfirst
        dsimp only
        have hkept : (t₁.ensureDirectory (way ++ name :: rest ++ [last])).1.node? (way ++ [name])
            = some .directory := by
          rw [node?_ensureDirectory (by simp) hlast]
          exact hfirst
        refine ⟨?_, fun hshort => ?_⟩
        · split
          · rename_i hmade
            rw [hmade] at hkept
            exact hkept
          · rename_i hmade
            rw [hmade] at hkept
            exact hkept
        · -- the directory above is there now, and there is still nothing below it
          have habove : t₁.walk [] (way ++ name :: rest) = .ok .directory := by
            have hthere := hasDirectory_of_ensureUpwards hensure
            rw [List.reverse_reverse] at hthere
            exact (hasDirectory_iff.mp hthere).2
          have hfree : t₁.node? (way ++ name :: rest ++ [last]) = none := by
            have hsame := @node?_ensureUpwards (way ++ name :: rest ++ [last])
              (way ++ name :: rest).reverse (fun hprefix => by
                have := hprefix.length_le
                simp only [List.length_append, List.length_reverse, List.length_cons,
                  List.length_nil] at this
                omega) t
            unfold ensureDirectories at hensure
            rw [hensure] at hsame
            rw [hsame]
            exact hnone _ (Path.isBelow_iff.mpr ⟨rest ++ [last], by simp, by simp⟩)
          rw [ensureDirectory_of_reach
            (reachParent_of_walk hlength habove (hshort last (by simp))) hfree]

/-- If anything changes, a directory on the way was missing, and the path is not too long. -/
theorem breaks_of_changed (hnil : path ≠ []) (h : (t.ensureDirectories path).1 ≠ t) :
    Text.octetLength path.text ≤ pathLimit ∧
      ∃ way name rest, path = way ++ name :: rest ∧ t.Breaks way name := by
  obtain ⟨up, last, rfl⟩ : ∃ up last, path = up ++ [last] :=
    ⟨_, _, (List.dropLast_concat_getLast hnil).symm⟩
  rcases ensureDirectory_cases (up ++ [last]) t with ⟨hreach, hfree⟩ | hreach | ⟨answer, hsame, he⟩
  · obtain ⟨hlength, hparent, hlast⟩ := reachParent_eq_ok hreach
    rw [List.dropLast_concat] at hparent
    rw [List.getLast?_concat] at hlast
    exact ⟨hlength, up, last, [], rfl, hparent, hfree, hlast⟩
  · unfold reachParent at hreach
    split at hreach
    · cases hreach
    · rename_i hlength
      rw [List.dropLast_concat] at hreach
      cases hwalk : t.walk [] up with
      | ok node =>
          rw [hwalk] at hreach
          cases node with
          | directory =>
              dsimp only at hreach
              split at hreach
              · cases hreach
              · cases hreach
          | file content => cases hreach
      | error cause =>
          rw [hwalk] at hreach
          cases hreach
          obtain ⟨way, name, rest, rfl, hbreaks⟩ := breaks_of_walk hwalk
          exact ⟨Nat.le_of_not_lt hlength, way, name, rest ++ [last], by simp, hbreaks⟩
  · refine absurd ?_ h
    unfold ensureDirectories
    rw [List.reverse_append, List.reverse_singleton, List.singleton_append, ensureUpwards,
      List.reverse_cons, List.reverse_reverse, hsame]
    cases answer with
    | ok _ => rfl
    | error cause =>
        cases cause with
        | noEntry => exact absurd rfl he
        | _ => rfl

end FileTree

end PluginRegistry
