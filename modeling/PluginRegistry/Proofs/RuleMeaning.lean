import PluginRegistry.Validation.Rules
import PluginRegistry.Proofs.Payload
import PluginRegistry.Proofs.TextPieces
import Mathlib.Data.List.Nodup
import Mathlib.Data.List.Count
import Mathlib.Data.List.Induction

/-!
# What the rules ask for

When each rule of the registry has nothing to object to, told without the lists of violations:
versions are present and differ, the id is canonical, and every entry of the requirements can be
read. Of a record the rules look at no more than its outline, and a record with fewer releases gives
them nothing new to object to.
-/

namespace PluginRegistry

namespace Validator

/-! ## Versions -/

theorem tally_concat (items : List String) (item : String) :
    tally (items ++ [item]) =
      putMember item (((tally items).lookup item).getD 0 + 1) (tally items) := by
  unfold tally
  rw [List.foldl_append]
  rfl

theorem nodup_tally (items : List String) : ((tally items).map Prod.fst).Nodup := by
  induction items using List.reverseRecOn with
  | nil => exact List.nodup_nil
  | append_singleton items item ih =>
      rw [tally_concat]
      exact nodup_putMember ih

/-- The number of an item is found under it. -/
theorem lookup_numbers (number : String → Nat) (items : List String) (item : String) :
    (items.map fun i => (i, number i)).lookup item =
      if item ∈ items then some (number item) else none := by
  induction items with
  | nil => rfl
  | cons first rest ih =>
      by_cases hfirst : item = first
      · subst hfirst
        rw [if_pos List.mem_cons_self]
        exact List.lookup_cons_self
      · have hother : (item == first) = false := by simpa using hfirst
        rw [List.map_cons, List.lookup_cons, hother]
        simpa [hfirst] using ih

/-- A number that is put under an item replaces that of this item alone; a new item goes to the
end. -/
theorem putMember_numbers (number : String → Nat) (n : Nat) {items : List String} (item : String)
    (hitems : items.Nodup) :
    putMember item n (items.map fun i => (i, number i)) =
      (if item ∈ items then items else items ++ [item]).map
        fun i => (i, if i = item then n else number i) := by
  induction items with
  | nil => simp [putMember]
  | cons first rest ih =>
      obtain ⟨hnew, hrest⟩ := List.nodup_cons.mp hitems
      rw [List.map_cons, putMember]
      by_cases hfirst : first = item
      · subst hfirst
        rw [if_pos rfl, if_pos List.mem_cons_self, List.map_cons, if_pos rfl]
        refine congrArg _ (List.map_congr_left fun i hi => ?_)
        have hother : i ≠ first := by
          rintro rfl
          exact hnew hi
        rw [if_neg hother]
      · have hmem : item ∈ first :: rest ↔ item ∈ rest := by simp [Ne.symm hfirst]
        rw [if_neg hfirst, ih hrest]
        simp only [hmem]
        split
        · rw [List.map_cons, if_neg hfirst]
        · rw [List.cons_append, List.map_cons, if_neg hfirst]

theorem eraseDups_concat (items : List String) (item : String) :
    (items ++ [item]).eraseDups =
      if item ∈ items.eraseDups then items.eraseDups else items.eraseDups ++ [item] := by
  rw [List.eraseDups_append]
  simp only [List.mem_eraseDups]
  split
  · rename_i h
    simp [List.removeAll, h]
  · rename_i h
    simp [List.removeAll, h, List.eraseDups_cons]

/-- **The tally counts the items**, each at its first place. -/
theorem tally_eq (items : List String) :
    tally items = items.eraseDups.map fun item => (item, items.count item) := by
  induction items using List.reverseRecOn with
  | nil => rfl
  | append_singleton items item ih =>
      have hnodup : items.eraseDups.Nodup := by
        have hkeys := nodup_tally items
        rw [ih, List.map_map] at hkeys
        exact List.map_id items.eraseDups ▸ hkeys
      -- an item that was not there yet counts from zero
      have hsofar : ((tally items).lookup item).getD 0 = items.count item := by
        rw [ih, lookup_numbers]
        simp only [List.mem_eraseDups]
        split
        · rfl
        · rename_i hnew
          exact (List.count_eq_zero_of_not_mem hnew).symm
      rw [tally_concat, hsofar, ih, putMember_numbers _ _ _ hnodup, eraseDups_concat]
      refine List.map_congr_left fun i _ => congrArg _ ?_
      rw [List.count_append, List.count_singleton]
      split
      · rename_i he
        subst he
        simp
      · rename_i he
        simp [Ne.symm he]

theorem emptyVersions_eq_nil {releases : List Release} {index : Nat} :
    emptyVersions index releases = [] ↔ ∀ r ∈ releases, r.version ≠ "" := by
  induction releases generalizing index with
  | nil => simp [emptyVersions]
  | cons r rest ih =>
      unfold emptyVersions
      split
      · rename_i hr
        simp [hr]
      · rename_i hr
        simp [ih, hr]

/-- The versions that are reported are those that are there and occur more than once. -/
theorem repeatedVersions_eq (versions : List String) :
    repeatedVersions versions =
      ((versions.filter (· ≠ "")).eraseDups.filter fun v => 1 < versions.count v).map fun v =>
        .repeatedVersion v (versions.count v) := by
  have htally : tally (versions.filter (· ≠ "")) =
      (versions.filter (· ≠ "")).eraseDups.map fun v => (v, versions.count v) := by
    rw [tally_eq]
    refine List.map_congr_left fun v hv => congrArg _ ?_
    exact List.count_filter (List.mem_filter.mp (List.mem_eraseDups.mp hv)).2
  unfold repeatedVersions
  rw [htally, List.filter_map, List.map_map]
  rfl

theorem repeatedVersions_eq_nil {versions : List String} (h : "" ∉ versions) :
    repeatedVersions versions = [] ↔ versions.Nodup := by
  have hpresent : versions.filter (· ≠ "") = versions := by
    rw [List.filter_eq_self]
    intro v hv
    simpa using fun he : v = "" => h (he ▸ hv)
  rw [repeatedVersions_eq, hpresent, List.map_eq_nil_iff, List.filter_eq_nil_iff,
    List.nodup_iff_count_le_one]
  constructor
  · -- a version that is there more than once would have been reported
    intro hrepeated v
    by_cases hv : v ∈ versions
    · simpa using hrepeated v (List.mem_eraseDups.mpr hv)
    · rw [List.count_eq_zero_of_not_mem hv]
      exact Nat.zero_le 1
  · intro hcount v _
    simpa using hcount v

/-- Versions are present and differ. -/
theorem uniqueVersions_check {p : Plugin} :
    uniqueVersions.check p = [] ↔ "" ∉ p.versions ∧ p.versions.Nodup := by
  have hpresent : (∀ r ∈ p.releases, r.version ≠ "") ↔ "" ∉ p.versions := by
    simp [Plugin.versions]
  unfold uniqueVersions
  dsimp only
  rw [List.append_eq_nil_iff, emptyVersions_eq_nil, hpresent]
  exact and_congr_right repeatedVersions_eq_nil

/-! ## Ids -/

/-- The id is canonical. -/
theorem canonicalId_check {p : Plugin} : canonicalId.check p = [] ↔ isCanonicalId p.id := by
  unfold canonicalId
  dsimp only
  split
  · rename_i h
    simp [h]
  · rename_i h
    simp [h]

/-- A letter or digit of ASCII, a hyphen or an underscore. -/
def IsIdLetter (c : Char) : Prop :=
  ('a' ≤ c ∧ c ≤ 'z') ∨ ('A' ≤ c ∧ c ≤ 'Z') ∨ ('0' ≤ c ∧ c ≤ '9') ∨ c = '-' ∨ c = '_'

theorem isIdChar_iff {c : Char} : isIdChar c ↔ IsIdLetter c := by
  unfold isIdChar IsIdLetter
  simp only [Bool.or_eq_true, decide_eq_true_eq, Text.isAlphanum_iff]
  tauto

/-- A namespace or a name. -/
def IsIdPart (cs : List Char) : Prop := cs ≠ [] ∧ ∀ c ∈ cs, IsIdLetter c

/-- **A namespace and a name, with a point between them.** -/
def IsQualified (id : String) : Prop :=
  ∃ space name, IsIdPart space ∧ IsIdPart name ∧ id.toList = space ++ '.' :: name

theorem IsIdPart.point {cs : List Char} (h : IsIdPart cs) : '.' ∉ cs :=
  fun hpoint => absurd (isIdChar_iff.mpr (h.2 _ hpoint)) (by decide)

theorem isIdPart_iff {cs : List Char} : (!cs.isEmpty && cs.all isIdChar) = true ↔ IsIdPart cs := by
  unfold IsIdPart
  simp only [Text.isRun_iff, isIdChar_iff]

theorem IsQualified.forall_mem {id : String} (h : IsQualified id) :
    ∀ c ∈ id.toList, c = '.' ∨ IsIdLetter c := by
  obtain ⟨space, name, hspace, hname, hid⟩ := h
  intro c hc
  rw [hid, List.mem_append, List.mem_cons] at hc
  rcases hc with hc | hc | hc
  · exact .inr (hspace.2 c hc)
  · exact .inl hc
  · exact .inr (hname.2 c hc)

/-- No other character is in a qualified id. -/
theorem IsQualified.notMem {id : String} (h : IsQualified id) {c : Char} (hc : isIdChar c = false)
    (hpoint : c ≠ '.') : c ∉ id.toList := by
  intro hmem
  have hletter := (h.forall_mem c hmem).resolve_left hpoint
  rw [isIdChar_iff.mpr hletter] at hc
  cases hc

theorem isCanonicalId_iff_qualified {id q : String} (hq : withoutLineEnd id.toList = q.toList) :
    isCanonicalId id ↔ IsQualified q := by
  unfold isCanonicalId
  rw [hq]
  constructor
  · intro h
    split at h
    · rename_i space name hpieces
      have hparts : ∀ part ∈ [space, name], IsIdPart part := fun part hpart =>
        isIdPart_iff.mp (List.all_eq_true.mp h part hpart)
      have hjoined := ((Text.splitAt_eq_iff (List.cons_ne_nil _ _)).mp hpieces).2
      exact ⟨space, name, hparts space (by simp), hparts name (by simp), by simpa using hjoined⟩
    · cases h
  · rintro ⟨space, name, hspace, hname, hid⟩
    have hpieces : Text.splitAt '.' q.toList = [space, name] := by
      rw [hid, Text.splitAt_append _ hspace.point, Text.splitAt_of_notMem hname.point]
    rw [hpieces]
    refine List.all_eq_true.mpr fun part hpart => isIdPart_iff.mpr ?_
    rcases List.mem_pair.mp hpart with rfl | rfl
    · exact hspace
    · exact hname

/-- **The id is qualified, or a qualified one with a line feed after it.** -/
def IsNearlyQualified (id : String) : Prop := IsQualified id ∨ ∃ q, IsQualified q ∧ id = q ++ "\n"

/-- The rule overlooks one line feed at the end. -/
theorem isCanonicalId_iff {id : String} : isCanonicalId id ↔ IsNearlyQualified id := by
  unfold IsNearlyQualified
  by_cases hlast : id.toList.getLast? = some '\n'
  · obtain ⟨q, rfl⟩ : ∃ q, id = q ++ "\n" := by
      refine ⟨String.ofList id.toList.dropLast, ?_⟩
      rw [← String.toList_inj, String.toList_append, String.toList_ofList]
      exact (List.dropLast_append_getLast? _ hlast).symm
    have hq : withoutLineEnd (q ++ "\n").toList = q.toList := by
      rw [withoutLineEnd, if_pos hlast, String.toList_append]
      exact List.dropLast_concat
    -- with the line feed that is overlooked the id would not be qualified
    have hnot : ¬IsQualified (q ++ "\n") := fun h =>
      h.notMem (by decide) (by decide) (List.mem_of_getLast? hlast)
    rw [isCanonicalId_iff_qualified hq, or_iff_right hnot]
    constructor
    · exact fun h => ⟨q, h, rfl⟩
    · rintro ⟨q', h, he⟩
      rwa [(String.append_left_inj _).mp he]
  · have hq : withoutLineEnd id.toList = id.toList := by rw [withoutLineEnd, if_neg hlast]
    rw [isCanonicalId_iff_qualified hq, or_iff_left]
    rintro ⟨q, _, rfl⟩
    exact hlast (by simp)

/-! ## Requirements -/

/-- Comparing the numbers first overlooks no entry. -/
theorem malformedEntries_eq (r : Release) :
    malformedEntries r =
      r.requirementEntries.filter fun entry => (Requirement.parse? entry).isNone := by
  unfold malformedEntries
  dsimp only
  split
  · -- as many requirements as entries: each entry gave one
    rename_i hcount
    have hread : ∀ entry ∈ r.requirementEntries, (Requirement.parse? entry).isSome :=
      List.filterMap_length_eq_length.mp hcount
    symm
    rw [List.filter_eq_nil_iff]
    intro entry hentry hnone
    have hsome := hread entry hentry
    rw [Option.isNone_iff_eq_none.mp hnone] at hsome
    cases hsome
  · rfl

theorem malformedRequirements_eq_nil {releases : List Release} {index : Nat} :
    malformedRequirements index releases = [] ↔
      ∀ r ∈ releases, ∀ entry ∈ r.requirementEntries, (Requirement.parse? entry).isSome := by
  induction releases generalizing index with
  | nil => simp [malformedRequirements]
  | cons r rest ih =>
      rw [malformedRequirements, List.append_eq_nil_iff, ih, List.forall_mem_cons,
        List.map_eq_nil_iff, malformedEntries_eq, List.filter_eq_nil_iff]
      simp [Option.isSome_iff_ne_none]

/-- Every entry of the requirements can be read. -/
theorem requirementFormat_check {p : Plugin} :
    requirementFormat.check p = [] ↔
      ∀ r ∈ p.releases, ∀ entry ∈ r.requirementEntries, (Requirement.parse? entry).isSome :=
  malformedRequirements_eq_nil

end Validator

/-! ## Records with fewer releases -/

namespace Plugin

/-- What the rules look at in the releases: version and requirements. -/
def outline (p : Plugin) : List (String × Option String) :=
  p.releases.map fun r => (r.version, r.requires)

/-- The record is of the same plugin, and the rules find no other releases in it. -/
structure Within (q p : Plugin) : Prop where
  /-- The id is the same. -/
  id : q.id = p.id
  /-- What the rules look at is all there. -/
  outline : q.outline.Sublist p.outline

theorem versions_eq_outline (p : Plugin) : p.versions = p.outline.map Prod.fst := by
  unfold versions outline
  rw [List.map_map]
  rfl

theorem Within.versions {p q : Plugin} (h : q.Within p) : q.versions.Sublist p.versions := by
  rw [versions_eq_outline, versions_eq_outline]
  exact h.outline.map Prod.fst

/-- The requirements of each release are those of one in the larger record. -/
theorem Within.requirementEntries {p q : Plugin} (h : q.Within p) {r : Release}
    (hr : r ∈ q.releases) : ∃ r' ∈ p.releases, r'.requirementEntries = r.requirementEntries := by
  have hmem : (r.version, r.requires) ∈ p.outline :=
    h.outline.subset (List.mem_map.mpr ⟨r, hr, rfl⟩)
  obtain ⟨r', hr', heq⟩ := List.mem_map.mp hmem
  refine ⟨r', hr', ?_⟩
  unfold Release.requirementEntries
  rw [(Prod.mk.inj heq).2]

end Plugin

namespace Validator

/-- A rule that objects to nothing in a record with fewer releases. -/
def IsHereditary (rule : Validator) : Prop :=
  ∀ {p q : Plugin}, q.Within p → rule.check p = [] → rule.check q = []

theorem isHereditary_uniqueVersions : uniqueVersions.IsHereditary := by
  intro p q hq hp
  obtain ⟨hpresent, hnodup⟩ := uniqueVersions_check.mp hp
  have hversions := hq.versions
  exact uniqueVersions_check.mpr
    ⟨fun hempty => hpresent (hversions.subset hempty), hnodup.sublist hversions⟩

theorem isHereditary_canonicalId : canonicalId.IsHereditary := by
  intro p q hq hp
  rw [canonicalId_check, hq.id]
  exact canonicalId_check.mp hp

theorem isHereditary_requirementFormat : requirementFormat.IsHereditary := by
  intro p q hq hp
  refine requirementFormat_check.mpr fun r hr entry hentry => ?_
  obtain ⟨r', hr', hsame⟩ := hq.requirementEntries hr
  rw [← hsame] at hentry
  exact requirementFormat_check.mp hp r' hr' entry hentry

/-- All rules of the registry are hereditary, whichever are enforced. -/
theorem isHereditary_of_mem_builtIn {versions ids requirements : Bool} {rule : Validator}
    (h : rule ∈ builtIn versions ids requirements) : rule.IsHereditary := by
  unfold builtIn at h
  rw [List.mem_append, List.mem_append] at h
  rcases h with (h | h) | h
  · split at h
    · rw [List.mem_singleton.mp h]
      exact isHereditary_uniqueVersions
    · cases h
  · split at h
    · rw [List.mem_singleton.mp h]
      exact isHereditary_canonicalId
    · cases h
  · split at h
    · rw [List.mem_singleton.mp h]
      exact isHereditary_requirementFormat
    · cases h

end Validator

end PluginRegistry
