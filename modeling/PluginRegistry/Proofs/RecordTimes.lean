import PluginRegistry.Proofs.Lifetimes

/-!
# When a record was made and when it was changed last

A record tells when it was made and when it was changed last. Both are told by its life: the upsert
that made it, and the last operation that succeeded on it since. What a document says about the
times counts for nothing, and neither does an operation that fails, reads, or is on another record.
-/

namespace PluginRegistry

namespace CivilTime

/-- The numbers of a civil time, from the year down. -/
def parts (t : CivilTime) : List Nat :=
  [t.date.year, t.date.month, t.date.day, t.time.hour, t.time.minute, t.time.second,
    t.time.microsecond]

/-- A time is not after another one. -/
instance : LE CivilTime := ⟨fun s t => List.le s.parts t.parts⟩

instance (s t : CivilTime) : Decidable (s ≤ t) := List.decidableLE s.parts t.parts

theorem le_refl (t : CivilTime) : t ≤ t := List.le_refl t.parts

end CivilTime

namespace Deed

/-- The times of a row are those of the first and the last deed of a life that began with an
upsert. -/
def Times (life : List Deed) (row : Row) : Prop :=
  ∃ first last, life.head? = some first ∧ life.getLast? = some last ∧
    (∃ candidate, first.operation = .upsert candidate) ∧
    row.createdAt = first.stamp.time ∧ row.lastModified = last.stamp.time

/-- The times of a row can be told by the life of its record. -/
theorem traces_times : Traces fun life row _ => Times life row where
  made {d row candidate} hd _ hcreated hmodified :=
    ⟨d, d, rfl, rfl, ⟨candidate, hd⟩, hcreated, hmodified⟩
  revised {life d row row' p q} h _ _ _ _ _ hcreated hmodified := by
    obtain ⟨first, _, hfirst, _, hupsert, hmade, _⟩ := h
    refine ⟨first, d, ?_, ?_, hupsert, hcreated.trans hmade, hmodified⟩
    · rw [List.head?_append, hfirst, Option.some_or]
    · rw [List.getLast?_concat]

/-- While the clock does not go back, nothing of a life is before its first deed. -/
theorem time_le_of_life {life : List Deed} {first d : Deed}
    (h : (life.map (·.stamp.time)).Pairwise (· ≤ ·)) (hfirst : life.head? = some first)
    (hd : d ∈ life) : first.stamp.time ≤ d.stamp.time := by
  obtain ⟨rest, rfl⟩ := List.head?_eq_some_iff.mp hfirst
  rw [List.map_cons, List.pairwise_cons] at h
  rcases List.mem_cons.mp hd with rfl | hd
  · exact CivilTime.le_refl _
  · exact h.1 _ (List.mem_map_of_mem hd)

end Deed

namespace Registry

variable {σ : Type}

/-- **A record tells the times of its life.** After a run that started with an empty table, the life
of a record that is found began with an upsert, and the record tells the clock reading of that upsert
as the time when it was made and the clock reading of the last deed of its life as the time when it
was changed, both in UTC. It was not changed before it was made, while the clock does not go back. -/
theorem times_of_record {r : Registry σ} {w : World σ} (hw : w.Empty) {calls : List Call}
    (hc : ∀ c ∈ calls, c.operation.Proper) {id : String} {p : Plugin}
    (hp : (r.run calls w).plugin? id = some p) :
    ∃ first last, (Deed.life id (r.deeds calls w)).head? = some first ∧
      (Deed.life id (r.deeds calls w)).getLast? = some last ∧
      (∃ candidate, first.operation = .upsert candidate) ∧
      p.createTs = some (.utc first.stamp.time) ∧ p.lastModified = some (.utc last.stamp.time) ∧
      ((calls.map Call.now).Pairwise (· ≤ ·) → first.stamp.time ≤ last.stamp.time) := by
  obtain ⟨row, held, hrow, hheld, rfl⟩ := (r.sound_run hc hw.sound).row_of_plugin? hp
  obtain ⟨first, last, hfirst, hlast, hupsert, hcreated, hmodified⟩ :=
    (traced_run Deed.traces_times hw hc id).present row held hrow hheld
  refine ⟨first, last, hfirst, hlast, hupsert, ?_, ?_, fun hclock => ?_⟩
  · exact congrArg (some ∘ Moment.utc) hcreated
  · exact congrArg (some ∘ Moment.utc) hmodified
  · -- a life is part of the run, so its times are in order where those of the calls are
    rw [← times_deeds r calls w] at hclock
    have hlife := hclock.sublist ((Deed.life_sublist id (r.deeds calls w)).map (·.stamp.time))
    exact Deed.time_le_of_life hlife hfirst (List.mem_of_getLast? hlast)

/-- Calls that make a record, remove it, make it again from a document with times of its own, write
it without a change, and fail. -/
def remaking : List Call :=
  [⟨.early 1, .upsert (.bare "acme.a" [.bare "1.0.0" false])⟩,
    ⟨.early 2, .delete "acme.a" none⟩,
    ⟨.early 3, .upsert { Plugin.bare "acme.a" [.bare "1.0.0" false] with
      createTs := some (.utc (.early 8)), lastModified := some (.utc (.early 9)) }⟩,
    ⟨.early 4, .deleteRelease "acme.a" (.str "2.0.0") none⟩,
    ⟨.early 5, .createRelease "acme.a" (.bare "1.0.0" false) none⟩]

/-- The record was made by the second upsert and changed last by the removal of no release. -/
theorem times_of_record_remaking :
    ∃ p, ((plain none).run remaking (.blank ())).plugin? "acme.a" = some p ∧
      p.createTs = some (.utc (.early 3)) ∧ p.lastModified = some (.utc (.early 4)) ∧
      CivilTime.early 3 ≤ .early 4 := by
  have hproper : ∀ c ∈ remaking, c.operation.Proper := by
    decide
  have hempty : (World.blank ()).Empty := ⟨rfl, rfl⟩
  have hstored : (((plain none).run remaking (.blank ())).plugin? "acme.a").isSome = true := by
    decide +kernel
  have hclock : (remaking.map Call.now).Pairwise (· ≤ ·) := by
    decide
  have hends : (Deed.life "acme.a" ((plain none).deeds remaking (.blank ()))).map (·.stamp.time)
      = [.early 3, .early 4] := by
    decide +kernel
  obtain ⟨p, hp⟩ := Option.isSome_iff_exists.mp hstored
  obtain ⟨first, last, hfirst, hlast, _, hcreated, hmodified, hle⟩ :=
    times_of_record (r := plain none) hempty hproper hp
  have hf := congrArg List.head? hends
  rw [List.head?_map, hfirst] at hf
  have hl := congrArg List.getLast? hends
  rw [List.getLast?_map, hlast] at hl
  have hordered := hle hclock
  rw [show first.stamp.time = .early 3 from Option.some.inj hf] at hcreated hordered
  rw [show last.stamp.time = .early 4 from Option.some.inj hl] at hmodified hordered
  exact ⟨p, hp, hcreated, hmodified, hordered⟩

end Registry

end PluginRegistry
