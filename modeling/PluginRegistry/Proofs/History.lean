import PluginRegistry.Proofs.RecordReading
import PluginRegistry.Proofs.StoredRows
import PluginRegistry.Service.Basic

/-!
# Histories of the registry

A run is a list of calls, each an operation at a time of its own, one after the other on the same
state. A call that fails is followed by the next one like any other. What is remembered of a run is
its history: which operations were asked for, and whether each succeeded.
-/

namespace PluginRegistry

instance (value : Json) : Decidable (∃ text, value = .str text) :=
  match value with
  | .str text => isTrue ⟨text, rfl⟩
  | .null | .bool _ | .int _ | .float _ | .arr _ | .obj _ => isFalse nofun

instance (value : Json) : Decidable (∃ flag, value = .bool flag) :=
  match value with
  | .bool flag => isTrue ⟨flag, rfl⟩
  | .null | .str _ | .int _ | .float _ | .arr _ | .obj _ => isFalse nofun

/-- What can be asked of the registry. A version may be any value, and so may a preference. -/
inductive Operation where
  | findAll
  | findByService (service : Option String)
  | find (id : String)
  | validate (plugin : Plugin)
  | upsert (candidate : Plugin)
  | delete (id : String) (user : Option String)
  | createRelease (id : String) (release : Release) (user : Option String)
  | upsertRelease (id : String) (release : Release) (user : Option String)
  | deleteRelease (id : String) (version : Json) (user : Option String)
  | preferRelease (id : String) (version preference : Json) (user : Option String)

/-- What an operation gives. -/
inductive Answer where
  | plugins (plugins : List Plugin)
  | plugin (plugin : Plugin)
  | release (release : Release)
  | done

namespace Operation

/-- The arguments are of the kinds that are asked for: records as they are read
(`Plugin.wellFormed_of_read`), a text for a version and a flag for a preference. -/
def Proper : Operation → Prop
  | .upsert candidate => candidate.WellFormed
  | .createRelease _ release _ | .upsertRelease _ release _ => release.WellFormed
  | .deleteRelease _ version _ => ∃ text, version = .str text
  | .preferRelease _ version preference _ =>
    (∃ text, version = .str text) ∧ ∃ flag, preference = .bool flag
  | _ => True

instance : DecidablePred Proper
  | .upsert candidate => inferInstanceAs (Decidable candidate.WellFormed)
  | .createRelease _ release _ | .upsertRelease _ release _ =>
    inferInstanceAs (Decidable release.WellFormed)
  | .deleteRelease _ version _ => inferInstanceAs (Decidable (∃ text, version = .str text))
  | .preferRelease _ version preference _ =>
    inferInstanceAs
      (Decidable ((∃ text, version = .str text) ∧ ∃ flag, preference = .bool flag))
  | .findAll | .findByService _ | .find _ | .validate _ | .delete _ _ => isTrue trivial

end Operation

/-- An operation at a time. -/
structure Call where
  now : CivilTime
  operation : Operation

/-- An operation that was asked for, and whether it succeeded. -/
structure Event where
  operation : Operation
  succeeded : Bool

namespace Registry

variable {σ : Type}

/-- Does what is asked for. -/
def perform (r : Registry σ) (now : CivilTime) : Operation → Action σ Answer
  | .findAll => .plugins <$> r.findAll
  | .findByService service => .plugins <$> r.findByService service
  | .find id => .plugin <$> r.find id
  | .validate plugin => (fun _ => .done) <$> r.validate plugin
  | .upsert candidate => .plugin <$> r.upsert now candidate
  | .delete id user => (fun _ => .done) <$> r.delete now id user
  | .createRelease id release user => .plugin <$> r.createRelease now id release user
  | .upsertRelease id release user => .plugin <$> r.upsertRelease now id release user
  | .deleteRelease id (.str version) user => .plugin <$> r.deleteRelease now id version user
  | .deleteRelease id version user => .plugin <$> r.deleteNoRelease now id version user
  | .preferRelease id (.str version) preference user =>
    .release <$> r.preferRelease now id version preference user
  | .preferRelease id version _ _ => .release <$> r.preferNoRelease id version

/-- The answer to a call, and the state after it. -/
def answer (r : Registry σ) (c : Call) (w : World σ) : Except Failure Answer × World σ :=
  (r.perform c.now c.operation).start w

/-- The state after a run. -/
def run (r : Registry σ) : List Call → World σ → World σ
  | [], w => w
  | c :: rest, w => r.run rest (r.answer c w).2

/-- What happened in a run. -/
def history (r : Registry σ) : List Call → World σ → List Event
  | [], _ => []
  | c :: rest, w => ⟨c.operation, (r.answer c w).1.isOk⟩ :: r.history rest (r.answer c w).2

theorem run_append (r : Registry σ) (calls more : List Call) (w : World σ) :
    r.run (calls ++ more) w = r.run more (r.run calls w) := by
  induction calls generalizing w with
  | nil => rfl
  | cons c rest ih => exact ih _

/-- What is noted of the calls of a run, of each by the state that it starts from. -/
def trace {α : Type} (r : Registry σ) (note : Call → World σ → α) : List Call → World σ → List α
  | [], _ => []
  | c :: rest, w => note c w :: r.trace note rest (r.answer c w).2

theorem history_eq_trace (r : Registry σ) (calls : List Call) (w : World σ) :
    r.history calls w = r.trace (fun c w => ⟨c.operation, (r.answer c w).1.isOk⟩) calls w := by
  induction calls generalizing w with
  | nil => rfl
  | cons c rest ih => exact congrArg (List.cons _) (ih _)

/-- **What every call preserves holds after every run.** The property may be about what was noted
up to then beside the state. -/
theorem trace_induction {α : Type} (r : Registry σ) (note : Call → World σ → α)
    {motive : List α → World σ → Prop}
    (hstep : ∀ noted w c, c.operation.Proper → motive noted w →
      motive (noted ++ [note c w]) (r.answer c w).2)
    {calls : List Call} (hc : ∀ c ∈ calls, c.operation.Proper) (noted : List α) {w : World σ}
    (h : motive noted w) : motive (noted ++ r.trace note calls w) (r.run calls w) := by
  induction calls generalizing noted w with
  | nil =>
      rw [trace, List.append_nil]
      exact h
  | cons c rest ih =>
      obtain ⟨h1, h2⟩ := List.forall_mem_cons.mp hc
      have hrest := ih h2 _ (hstep noted w c h1 h)
      rw [List.append_assoc] at hrest
      exact hrest

/-- The property may be about the events up to then. -/
theorem run_induction (r : Registry σ) {motive : List Event → World σ → Prop}
    (hstep : ∀ events w c, c.operation.Proper → motive events w →
      motive (events ++ [⟨c.operation, (r.answer c w).1.isOk⟩]) (r.answer c w).2)
    {calls : List Call} (hc : ∀ c ∈ calls, c.operation.Proper) (events : List Event) {w : World σ}
    (h : motive events w) : motive (events ++ r.history calls w) (r.run calls w) := by
  rw [history_eq_trace]
  exact r.trace_induction _ hstep hc events h

/-- The states that a registry can be in: it starts with an empty table, calls follow one another,
and others may change the artifacts in between. -/
inductive Reached (r : Registry σ) : World σ → Prop
  /-- At first there are no records. -/
  | empty {w : World σ} (hw : w.Empty) : Reached r w
  /-- A call was answered. -/
  | call {w : World σ} (c : Call) (hop : c.operation.Proper) (hw : Reached r w) :
    Reached r (r.answer c w).2
  /-- The artifacts were changed. -/
  | stored {w : World σ} (artifacts : σ) (hw : Reached r w) : Reached r { w with artifacts }

theorem Reached.run {r : Registry σ} {w : World σ} (hw : r.Reached w) {calls : List Call}
    (hc : ∀ c ∈ calls, c.operation.Proper) : r.Reached (r.run calls w) := by
  induction calls generalizing w with
  | nil => exact hw
  | cons c rest ih =>
      obtain ⟨hop, hrest⟩ := List.forall_mem_cons.mp hc
      exact ih (.call c hop hw) hrest

end Registry

/-! ## A registry to try things on -/

/-- A release of which nothing is told but its version and its preference. -/
def Release.bare (version : String) (preferred : Bool) : Release where
  version
  date := none
  requires := none
  url := none
  sha512sum := none
  releaseNotes := none
  preferred
  preferredAs := none
  lastModified := none
  lastModifiedBy := none
  extras := []

/-- A plugin of which nothing is told but its releases. -/
def Plugin.bare (id : String) (releases : List Release) : Plugin where
  id
  service := none
  description := none
  provider := none
  releases
  createTs := none
  lastModified := none
  extras := []

/-- A registry that keeps artifacts in a store, asks for unique versions, and knows nobody. -/
def Registry.plain {σ : Type} (store : Option (ArtifactStore σ)) : Registry σ where
  store
  validators := [Validator.uniqueVersions]
  resolver := none
  anonymousUser := "anonymous"
  timing := ⟨.finite (.zero false), .finite (.zero false)⟩

/-- A time in the first minute of 1970. -/
def CivilTime.early (second : Nat) : CivilTime :=
  ⟨.epoch, ⟨0, 0, second % 60, 0, by decide, by decide, Nat.mod_lt _ (by decide), by decide⟩⟩

/-- An empty table beside some artifacts. -/
def World.blank {σ : Type} (artifacts : σ) : World σ where
  table := some .empty
  readOnly := false
  artifacts
  asked := 0
  log := []

end PluginRegistry
