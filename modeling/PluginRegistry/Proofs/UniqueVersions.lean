import PluginRegistry.Proofs.RecordInvariants

/-!
# Versions are unique

Where the validators ask for unique versions, every record that is made or written after a
validation has them, and the changes that are not validated do not bring a version in twice:
removing releases leaves fewer versions, and a preference leaves them as they are. So the versions
of every stored record are unique in every state that a run reaches from an empty table.
-/

namespace PluginRegistry

/-- The versions of every stored record are unique. -/
def World.Unique {σ : Type} (w : World σ) : Prop :=
  ∀ id row p, w.row? id = some row → row.Holds p → p.versions.Nodup

theorem World.Empty.unique {σ : Type} {w : World σ} (h : w.Empty) : w.Unique := h.every

/-- A revision that was validated, if it had to be, has unique versions. -/
theorem Operation.nodup_of_revision? {op : Operation} {stamp : Stamp} {p q : Plugin}
    (hp : p.versions.Nodup) (h : op.revision? stamp p = some q)
    (hvalid : op.IsValidated → q.versions.Nodup) : q.versions.Nodup := by
  by_cases hop : op.IsValidated
  · exact hvalid hop
  · exact hp.sublist (within_of_revision? h hop).versions

namespace Registry

variable {σ : Type}

theorem nodup_of_accepts {r : Registry σ} {p : Plugin}
    (hr : Validator.uniqueVersions ∈ r.validators) (h : r.Accepts p) : p.versions.Nodup :=
  (Validator.uniqueVersions_check.mp (h.check hr)).2

theorem maintains_nodup {r : Registry σ} (hr : Validator.uniqueVersions ∈ r.validators) :
    r.Maintains fun p => p.versions.Nodup where
  made candidate hvalid := by
    rw [Plugin.versions_restored]
    exact nodup_of_accepts hr hvalid
  revised {_ _ row p _} hrevision hvalid hp hq hnodup := by
    rw [Plugin.versions_overwrittenBy hp hq]
    exact Operation.nodup_of_revision? (p := p.timed row) hnodup hrevision
      fun hv => nodup_of_accepts hr (hvalid hv)

/-- A successful operation keeps versions unique. -/
theorem Effect.unique {r : Registry σ} (hr : Validator.uniqueVersions ∈ r.validators)
    {now : CivilTime} {op : Operation} {w w' : World σ} (h : r.Effect now w w' op) (hu : w.Unique) :
    w'.Unique := h.every (maintains_nodup hr) hu

/-- Every call keeps versions unique. -/
theorem unique_answer {r : Registry σ} (hr : Validator.uniqueVersions ∈ r.validators) {c : Call}
    (hop : c.operation.Proper) {w : World σ} (hs : w.Sound) (hu : w.Unique) :
    (r.answer c w).2.Unique := every_answer (maintains_nodup hr) hop hs hu

/-- **Every run keeps versions unique.** -/
theorem unique_run {r : Registry σ} (hr : Validator.uniqueVersions ∈ r.validators)
    {calls : List Call} (hc : ∀ c ∈ calls, c.operation.Proper) {w : World σ} (hs : w.Sound)
    (hu : w.Unique) : (r.run calls w).Unique :=
  (r.run_induction (motive := fun _ w => w.Sound ∧ w.Unique)
    (fun _ _ _ hop h => ⟨r.sound_answer hop h.1, unique_answer hr hop h.1 h.2⟩) hc [] ⟨hs, hu⟩).2

end Registry

end PluginRegistry
