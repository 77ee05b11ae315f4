import PluginRegistry.Proofs.ArtifactFrame
import PluginRegistry.Proofs.ReleaseAcceptance
import PluginRegistry.Proofs.Upserting

/-!
# Which ids are stored

The rule for ids objects to an id once, with the id as the value that it rejects, or not at all. It
does not object to the ids that are qualified, and to no others but those that have a line feed
after such an id: a registry with all its rules can come to hold the records of these ids and of no
other.
-/

namespace PluginRegistry

namespace Validator

theorem IsIdLetter.toNat_lt {c : Char} (h : IsIdLetter c) : c.toNat < 128 := by
  unfold IsIdLetter at h
  simp only [Char.le_def, UInt32.le_iff_toNat_le] at h
  rcases h with ⟨_, h⟩ | ⟨_, h⟩ | ⟨_, h⟩ | rfl | rfl
  · exact Nat.lt_of_le_of_lt h (by decide)
  · exact Nat.lt_of_le_of_lt h (by decide)
  · exact Nat.lt_of_le_of_lt h (by decide)
  · decide
  · decide

theorem IsNearlyQualified.toNat_lt {id : String} (h : IsNearlyQualified id) :
    ∀ c ∈ id.toList, c.toNat < 128 := by
  have hqualified : ∀ q, IsQualified q → ∀ c ∈ q.toList, c.toNat < 128 := by
    intro q hq c hc
    rcases hq.forall_mem c hc with rfl | hletter
    · decide
    · exact hletter.toNat_lt
  rcases h with hid | ⟨q, hq, rfl⟩
  · exact hqualified id hid
  · intro c hc
    rw [String.toList_append, List.mem_append] at hc
    rcases hc with hc | hc
    · exact hqualified q hq c hc
    · rw [List.mem_singleton.mp hc]
      decide

theorem IsNearlyQualified.ne_empty {id : String} (h : IsNearlyQualified id) : id ≠ "" := by
  rintro rfl
  exact absurd (isCanonicalId_iff.mpr h) (by decide)

end Validator

namespace Registry

open Validator PluginRegistry.Action

variable {σ : Type}

theorem wellFormed_bare {id : String} (h : IsNearlyQualified id) :
    (Plugin.bare id []).WellFormed where
  named := h.ne_empty
  encoded := Text.half?_of_ascii h.toNat_lt
  releases := List.forall_mem_nil _
  undeclared := ⟨List.nodup_nil, nofun⟩

/-- An upsert makes a plugin of such an id. -/
theorem reached_bare {r : Registry σ} (hrules : r.validators = Validator.all) (artifacts : σ)
    {id : String} (h : IsNearlyQualified id) :
    ∃ w row, r.Reached w ∧ w.row? id = some row := by
  have hempty : (World.blank artifacts).Empty := ⟨rfl, rfl⟩
  have hwell : (Plugin.bare id []).WellFormed := wellFormed_bare h
  have haccepted : r.Accepts ((Plugin.bare id []).behind []) := by
    rw [accepts_iff hrules]
    exact ⟨⟨List.not_mem_nil, List.nodup_nil⟩, isCanonicalId_iff.mpr h, List.forall_mem_nil _⟩
  have hstorable : (Plugin.bare id []).Storable := ⟨rfl, List.forall_mem_nil _, rfl, rfl⟩
  obtain ⟨_, w', hstart, htakes⟩ :=
    (admits_new r default hempty.sound hwell rfl (hempty.row? id)).stored haccepted hstorable
  have hreached : r.Reached w' := by
    have hcall : r.Reached (r.answer ⟨default, .upsert (.bare id [])⟩ (.blank artifacts)).2 :=
      .call _ hwell (.empty hempty)
    unfold answer perform at hcall
    rwa [start_map_snd, hstart] at hcall
  obtain ⟨p, hp, _⟩ := htakes.stored
  obtain ⟨row, _, hrow, _⟩ := hreached.sound.row_of_plugin? hp
  exact ⟨w', row, hreached, hrow⟩

/-- **The rule for ids lets pass what is qualified, and with a line feed after it.** It objects to
every other id once, and these ids are those that a registry with all rules can hold. -/
theorem stored_ids {r : Registry σ} (hrules : r.validators = Validator.all) (artifacts : σ) :
    (∀ p : Plugin, (IsNearlyQualified p.id ∧ canonicalId.check p = []) ∨
      (¬IsNearlyQualified p.id ∧ ∃ v, canonicalId.check p = [v] ∧ v.field = some "id" ∧
        v.rejectedValue = .str p.id)) ∧
    ∀ id, (∃ w row, r.Reached w ∧ w.row? id = some row) ↔ IsNearlyQualified id := by
  have hrule : canonicalId ∈ r.validators := by
    rw [hrules]
    simp [Validator.all, Validator.builtIn]
  refine ⟨fun p => ?_, fun id => ⟨?_, reached_bare hrules artifacts⟩⟩
  · by_cases hid : IsNearlyQualified p.id
    · exact .inl ⟨hid, canonicalId_check.mpr (isCanonicalId_iff.mpr hid)⟩
    · have hreject : ¬isCanonicalId p.id := fun h => hid (isCanonicalId_iff.mp h)
      exact .inr ⟨hid, .idFormat p.id, if_neg hreject, rfl, rfl⟩
  · rintro ⟨w, row, hw, hrow⟩
    exact isCanonicalId_iff.mp (hw.canonical hrule id row hrow)

/-- An id with a line feed at its end is not qualified, and yet nothing is objected to, and a plugin
of this id can be stored. -/
theorem stored_ids_lineFeed :
    ¬IsQualified "acme.a\n" ∧ canonicalId.check (.bare "acme.a\n" []) = [] ∧
    ∃ w row, strict.Reached w ∧ w.row? "acme.a\n" = some row := by
  have hid : IsNearlyQualified "acme.a\n" := isCanonicalId_iff.mp (by decide)
  obtain ⟨hcheck, hstored⟩ := @stored_ids Unit strict rfl ()
  refine ⟨fun h => h.notMem (by decide) (by decide) (by decide : '\n' ∈ _), ?_,
    (hstored _).mpr hid⟩
  rcases hcheck (.bare "acme.a\n" []) with ⟨_, hnone⟩ | ⟨hnot, _⟩
  · exact hnone
  · exact absurd hid hnot

end Registry

end PluginRegistry
