import PluginRegistry.Proofs.Effects

/-!
# Failed operations leave everything as it was

A run that starts with an empty table reaches sound states only, and there every failure is one that
came before the first write. For most operations that is so on any state, since they write once and
nothing after the write can fail. Removing a record writes once for each of its releases. On a sound
state no step of it can fail, whatever the artifact store does, so it is either passed over or runs
to its end.
-/

namespace PluginRegistry

namespace Registry

open PluginRegistry.Action

variable {σ : Type}

/-- What comes of removing a record depends on whether its id has octets. -/
theorem perform_delete (r : Registry σ) (now : CivilTime) (id : String) (user : Option String)
    {w : World σ} (hs : w.Sound) :
    ∃ answer w', (r.perform now (.delete id user)).start w = (answer, w') ∧ w.Removed id w' ∧
      (w.row? id = none → w.Kept w') ∧ (textFault? id = none → answer = .ok .done) ∧
      ∀ fault, textFault? id = some fault →
        answer = .error (.catalog fault) ∧ w.row? id = none := by
  cases hid : textFault? id with
  | none =>
      obtain ⟨w', hstart, hremoved, _, hmissing, _⟩ := delete_start r now user hs hid
      exact ⟨.ok .done, w', start_map_eq_ok.mpr ⟨(), hstart, rfl⟩, hremoved, hmissing,
        fun _ => rfl, nofun⟩
  | some fault =>
      obtain ⟨w', hstart, hk⟩ := delete_of_fault r now user hs hid
      have hnone : w.row? id = none := Option.eq_none_iff_forall_ne_some.mpr fun row hrow => by
        cases hid.symm.trans (hs.textFault?_of_row hrow)
      have hsame := hk.sameRecords
      refine ⟨.error (.catalog fault), w', ?_, ⟨(hsame.row? id).trans hnone,
        fun id' _ => hsame.row? id'⟩, fun _ => hk, nofun, fun _ h => ?_⟩
      · show start ((fun _ => Answer.done) <$> r.delete now id user) w = _
        rw [map_eq_pure_bind, start_bind, hstart]
      · exact ⟨by rw [Option.some.inj h], hnone⟩

/-- A failure on a sound state changes nothing. -/
theorem kept_of_error {r : Registry σ} {now : CivilTime} {op : Operation} {w w' : World σ}
    {failure : Failure} (hs : w.Sound) (h : (r.perform now op).start w = (.error failure, w')) :
    w.Kept w' := by
  cases op with
  | delete id user =>
      obtain ⟨answer, w₁, hstart, _, hmissing, hdone, hfault⟩ := perform_delete r now id user hs
      obtain ⟨rfl, rfl⟩ := Prod.mk.inj (hstart.symm.trans h)
      cases hid : textFault? id with
      | none => cases hdone hid
      | some fault => exact hmissing (hfault fault hid).2
  | _ => exact atomic_perform r now (fun _ _ h => by cases h) w failure w' h

/-- What a call on a sound state comes to: a failure that changes nothing, or the effect of its
operation. -/
theorem answer_cases (r : Registry σ) {c : Call} {w : World σ} (hs : w.Sound)
    (hop : c.operation.Proper) :
    ((r.answer c w).1.isOk = false ∧ w.Kept (r.answer c w).2) ∨
      ((r.answer c w).1.isOk = true ∧ r.Effect c.now w (r.answer c w).2 c.operation) := by
  rcases h : r.answer c w with ⟨failure | answer, w'⟩
  · exact .inl ⟨rfl, kept_of_error hs h⟩
  · exact .inr ⟨rfl, (perform_eq_ok hs hop h).1⟩

/-- Every call leaves a sound state. -/
theorem sound_answer (r : Registry σ) {c : Call} {w : World σ} (hop : c.operation.Proper)
    (hs : w.Sound) : (r.answer c w).2.Sound := by
  rcases h : r.answer c w with ⟨failure | answer, w'⟩
  · exact (kept_of_error hs h).sameRecords.sound hs
  · exact (perform_eq_ok hs hop h).2

/-- Every run leaves a sound state. -/
theorem sound_run (r : Registry σ) {calls : List Call} (hc : ∀ c ∈ calls, c.operation.Proper)
    {w : World σ} (hs : w.Sound) : (r.run calls w).Sound :=
  r.run_induction (motive := fun _ w => w.Sound) (fun _ _ _ hop hs => r.sound_answer hop hs) hc []
    hs

/-- Every state that is reached is sound. -/
theorem Reached.sound {r : Registry σ} {w : World σ} (hw : r.Reached w) : w.Sound := by
  induction hw with
  | empty hw => exact hw.sound
  | call c hop _ ih => exact r.sound_answer hop ih
  | @stored w artifacts _ ih =>
      have hsame : w.SameRecords { w with artifacts } := ⟨rfl, rfl⟩
      exact hsame.sound ih

/-- **A failed operation leaves everything as it was, and removing a record does not fail**, unless
its id is one that no record has, for want of octets. The state may have been reached with other
validators and another store. The operation may be given any arguments, and the store may fail as it
likes. -/
theorem failure_changes_nothing (r₀ r : Registry σ) {w : World σ} (hw : r₀.Reached w)
    (now : CivilTime) :
    (∀ op failure w', (r.perform now op).start w = (.error failure, w') → w.Kept w') ∧
    ∀ id user, ∃ answer w', (r.perform now (.delete id user)).start w = (answer, w') ∧
      w.Removed id w' ∧ (w.row? id = none → w.Kept w') ∧
      (textFault? id = none → answer = .ok .done) ∧
      ∀ fault, textFault? id = some fault →
        answer = .error (.catalog fault) ∧ w.row? id = none := by
  have hs := hw.sound
  exact ⟨fun op failure w' h => kept_of_error hs h, fun id user => perform_delete r now id user hs⟩

/-- A registry that cannot name the artifacts of any release. -/
def nameless : Registry Unit :=
  plain (some
    { getKey := fun _ _ => .error (.name .nullCharacter)
      store := fun _ _ w => (.ok (), w, [])
      load := fun _ _ => .ok []
      delete := fun _ w => (.ok (), w, [])
      listKeys := fun _ => [] })

/-- What it holds once a plugin was made. -/
def once : World Unit :=
  nameless.run [⟨default, .upsert (.bare "acme.a" [.bare "1.0.0" false, .bare "2.0.0" false])⟩]
    (.blank ())

/-- A release of a version that is there already is refused, and nothing has changed. The whole
record goes, though the store finds no key for an artifact of it. -/
theorem failure_changes_nothing_nameless :
    (∃ failure w', (nameless.perform default
        (.createRelease "acme.a" (.bare "1.0.0" false) none)).start once = (.error failure, w') ∧
      once.Kept w') ∧
    ∃ w', (nameless.perform default (.delete "acme.a" none)).start once = (.ok .done, w') ∧
      once.Removed "acme.a" w' := by
  have hreached : nameless.Reached once := by
    refine Reached.run (.empty ⟨rfl, rfl⟩) ?_
    decide
  obtain ⟨hkept, hdelete⟩ := failure_changes_nothing nameless nameless hreached default
  refine ⟨?_, ?_⟩
  · have hfailed : ((nameless.perform default
        (.createRelease "acme.a" (.bare "1.0.0" false) none)).start once).1.isOk = false := by
      decide +kernel
    rcases h : (nameless.perform default
        (.createRelease "acme.a" (.bare "1.0.0" false) none)).start once with ⟨failure | answer, w'⟩
    · exact ⟨failure, w', rfl, hkept _ failure w' h⟩
    · rw [h] at hfailed
      cases hfailed
  · obtain ⟨answer, w', hstart, hremoved, _, hdone, _⟩ := hdelete "acme.a" none
    exact ⟨w', hdone (by decide) ▸ hstart, hremoved⟩

end Registry

end PluginRegistry
