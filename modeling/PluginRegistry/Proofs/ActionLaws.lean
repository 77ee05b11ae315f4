import PluginRegistry.Catalog.Action

/-!
# What an action leaves behind

An action answers with a result or a failure, and with the state that it leaves. Four things are
told of that state. An action is *calm* if it touches nothing but the table and adds no audit entry
to the log; it *keeps* everything if it leaves the table alone as well. It is *atomic* if it keeps
everything whenever it fails, and *total* if it never fails. An action that keeps everything may be
followed by an atomic one, and an atomic one by a total one; that is how the operations of the
registry are built: they read and check first, then write once, and nothing after the write can
fail.
-/

namespace PluginRegistry

/-- The entry is a line of the audit. -/
def Log.Entry.IsAudit (e : Log.Entry) : Prop := "AUDIT: ".toList <+: e.message.toList

/-- Nothing but the table has changed, and no audit entry was added. -/
structure World.Calm {σ : Type} (w w' : World σ) : Prop where
  /-- What may be written is the same. -/
  readOnly : w'.readOnly = w.readOnly
  /-- The artifacts are the same. -/
  artifacts : w'.artifacts = w.artifacts
  /-- Entries were added to the log, none of them to the audit. -/
  log : ∃ entries, w'.log = w.log ++ entries ∧ ∀ e ∈ entries, ¬e.IsAudit

/-- The table has not changed either. -/
structure World.Kept {σ : Type} (w w' : World σ) : Prop extends w.Calm w' where
  /-- The records are the same. -/
  table : w'.table = w.table

namespace World

variable {σ : Type}

theorem Calm.refl (w : World σ) : w.Calm w :=
  ⟨rfl, rfl, [], (List.append_nil _).symm, fun _ he => by cases he⟩

theorem Calm.trans {w₁ w₂ w₃ : World σ} (h : w₁.Calm w₂) (h' : w₂.Calm w₃) : w₁.Calm w₃ := by
  obtain ⟨es, he, hq⟩ := h.log
  obtain ⟨es', he', hq'⟩ := h'.log
  refine ⟨h'.readOnly.trans h.readOnly, h'.artifacts.trans h.artifacts, es ++ es', ?_, ?_⟩
  · rw [he', he, List.append_assoc]
  · intro e hm
    rcases List.mem_append.mp hm with hm | hm
    · exact hq e hm
    · exact hq' e hm

theorem Kept.refl (w : World σ) : w.Kept w := ⟨Calm.refl w, rfl⟩

theorem Kept.trans {w₁ w₂ w₃ : World σ} (h : w₁.Kept w₂) (h' : w₂.Kept w₃) : w₁.Kept w₃ :=
  ⟨h.toCalm.trans h'.toCalm, h'.table.trans h.table⟩

/-- One more entry in the log, outside the audit. -/
theorem Kept.noted {w : World σ} {e : Log.Entry} (h : ¬e.IsAudit) :
    w.Kept { w with log := w.log ++ [e] } :=
  ⟨⟨rfl, rfl, [e], rfl, fun e' he => by rw [List.mem_singleton.mp he]; exact h⟩, rfl⟩

end World

namespace Action

variable {σ α β : Type}

/-! ## Running an action step by step -/

@[simp]
theorem start_pure (a : α) (w : World σ) : start (pure a : Action σ α) w = (.ok a, w) := rfl

@[simp]
theorem start_throw (failure : Failure) (w : World σ) :
    start (throw failure : Action σ α) w = (.error failure, w) := rfl

@[simp]
theorem start_get (w : World σ) : start (get : Action σ (World σ)) w = (.ok w, w) := rfl

@[simp]
theorem start_modify (f : World σ → World σ) (w : World σ) :
    start (modify f : Action σ PUnit) w = (.ok ⟨⟩, f w) := rfl

@[simp]
theorem start_note (topic : Log.Topic) (message : String) (w : World σ) :
    start (note topic message) w = (.ok (), { w with log := w.log ++ [⟨topic, message⟩] }) := rfl

@[simp]
theorem start_refuse (error : PluginError) (w : World σ) :
    start (refuse error : Action σ α) w = (.error (.error error), w) := rfl

@[simp]
theorem start_isReadOnly (w : World σ) :
    start (isReadOnly : Action σ Bool) w = (.ok w.readOnly, w) := rfl

theorem start_bind (x : Action σ α) (f : α → Action σ β) (w : World σ) :
    start (x >>= f) w =
      match start x w with
      | (.ok a, w') => start (f a) w'
      | (.error failure, w') => (.error failure, w') := by
  show (ExceptT.bindCont f (start x w).1).run (start x w).2 = _
  rcases start x w with ⟨_ | _, w'⟩ <;> rfl

theorem start_tryCatch (x : Action σ α) (handle : Failure → Action σ α) (w : World σ) :
    start (tryCatch x handle) w =
      match start x w with
      | (.ok a, w') => (.ok a, w')
      | (.error failure, w') => start (handle failure) w' := by
  unfold start
  rw [ExceptT.run_tryCatch, StateT.run_bind]
  rcases (ExceptT.run x).run w with ⟨_ | _, w'⟩ <;> rfl

theorem start_session (x : Action σ α) (w : World σ) :
    start (session x) w =
      match start x w with
      | (.ok a, w') => (.ok a, w')
      | (.error failure, w') => (.error failure, { w' with table := w.table }) := by
  show start (tryCatch x _) w = _
  rw [start_tryCatch]
  rcases start x w with ⟨_ | _, w'⟩ <;> rfl

/-- A sequence that went well went well at each step. -/
theorem start_bind_eq_ok {x : Action σ α} {f : α → Action σ β} {w w' : World σ} {b : β} :
    start (x >>= f) w = (.ok b, w') ↔
      ∃ a w₁, start x w = (.ok a, w₁) ∧ start (f a) w₁ = (.ok b, w') := by
  rw [start_bind]
  rcases start x w with ⟨failure | a, w₁⟩
  · simp
  · constructor
    · intro h
      exact ⟨a, w₁, rfl, h⟩
    · rintro ⟨_, _, ⟨⟩, h⟩
      exact h

/-- A sequence that failed failed at its first step or at the rest of it. -/
theorem start_bind_eq_error {x : Action σ α} {f : α → Action σ β} {w w' : World σ}
    {failure : Failure} :
    start (x >>= f) w = (.error failure, w') ↔
      start x w = (.error failure, w') ∨
        ∃ a w₁, start x w = (.ok a, w₁) ∧ start (f a) w₁ = (.error failure, w') := by
  rw [start_bind]
  rcases start x w with ⟨failure | a, w₁⟩
  · simp
  · constructor
    · intro h
      exact .inr ⟨a, w₁, rfl, h⟩
    · rintro (h | ⟨_, _, ⟨⟩, h⟩)
      · cases h
      · exact h

theorem start_session_eq_ok {x : Action σ α} {w w' : World σ} {a : α} :
    start (session x) w = (.ok a, w') ↔ start x w = (.ok a, w') := by
  rw [start_session]
  rcases start x w with ⟨failure | a, w₁⟩
  · simp
  · simp

theorem start_map_eq_ok {x : Action σ α} {f : α → β} {w w' : World σ} {b : β} :
    start (f <$> x) w = (.ok b, w') ↔ ∃ a, start x w = (.ok a, w') ∧ f a = b := by
  rw [map_eq_pure_bind, start_bind_eq_ok]
  constructor
  · rintro ⟨a, w₁, hx, hf⟩
    cases hf
    exact ⟨a, hx, rfl⟩
  · rintro ⟨a, hx, rfl⟩
    exact ⟨a, w', hx, rfl⟩

/-- What becomes of the result makes no difference to the state. -/
theorem start_map_snd (f : α → β) (x : Action σ α) (w : World σ) :
    (start (f <$> x) w).2 = (start x w).2 := by
  rw [map_eq_pure_bind, start_bind]
  rcases start x w with ⟨failure | a, w'⟩
  · rfl
  · rfl

theorem start_ofExcept_eq_ok {ε : Type} {failure : ε → Failure} {x : Except ε α} {w w' : World σ}
    {a : α} : start (ofExcept failure x) w = (.ok a, w') ↔ x = .ok a ∧ w' = w := by
  cases x with
  | ok b => simp [ofExcept, eq_comm]
  | error e => simp [ofExcept]

/-! ## Calm actions and those that keep everything -/

/-- Nothing but the table changes, however the action ends. -/
def Calm (x : Action σ α) : Prop := ∀ w : World σ, w.Calm (start x w).2

/-- Nothing changes, however the action ends. -/
def Keeps (x : Action σ α) : Prop := ∀ w : World σ, w.Kept (start x w).2

/-- Nothing changes if the action fails. -/
def Atomic (x : Action σ α) : Prop :=
  ∀ (w : World σ) (failure : Failure) (w' : World σ), start x w = (.error failure, w') → w.Kept w'

/-- The action does not fail. -/
def Total (x : Action σ α) : Prop := ∀ w : World σ, ∃ a w', start x w = (.ok a, w')

theorem Keeps.calm {x : Action σ α} (h : x.Keeps) : x.Calm := fun w => (h w).toCalm

theorem Keeps.atomic {x : Action σ α} (h : x.Keeps) : x.Atomic := by
  intro w failure w' hx
  have := h w
  rw [hx] at this
  exact this

/-- What is kept when an action answered. -/
theorem Keeps.of_start {x : Action σ α} (h : x.Keeps) {w w' : World σ} {a : Except Failure α}
    (hx : start x w = (a, w')) : w.Kept w' := by
  have := h w
  rw [hx] at this
  exact this

theorem Calm.of_start {x : Action σ α} (h : x.Calm) {w w' : World σ} {a : Except Failure α}
    (hx : start x w = (a, w')) : w.Calm w' := by
  have := h w
  rw [hx] at this
  exact this

theorem keeps_pure (a : α) : (pure a : Action σ α).Keeps := fun w => .refl w

theorem keeps_throw (failure : Failure) : (throw failure : Action σ α).Keeps := fun w => .refl w

theorem keeps_refuse (error : PluginError) : (refuse error : Action σ α).Keeps := fun w => .refl w

/-- Nothing that would come after a failure is done. -/
theorem keeps_throw_bind (failure : Failure) (next : α → Action σ β) :
    (throw failure >>= next : Action σ β).Keeps := fun w => .refl w

theorem keeps_get : (get : Action σ (World σ)).Keeps := fun w => .refl w

theorem keeps_isReadOnly : (isReadOnly : Action σ Bool).Keeps := fun w => .refl w

theorem keeps_note {topic : Log.Topic} {message : String}
    (h : ¬Log.Entry.IsAudit ⟨topic, message⟩) : (note topic message : Action σ Unit).Keeps :=
  fun _ => .noted h

theorem keeps_ofExcept {ε : Type} (failure : ε → Failure) (x : Except ε α) :
    (ofExcept failure x : Action σ α).Keeps := by
  cases x with
  | ok a => exact keeps_pure a
  | error e => exact keeps_throw _

/-- What each step leaves is left by the sequence, if it can be put together. -/
theorem bind_of_trans {R : World σ → World σ → Prop}
    (htrans : ∀ {w₁ w₂ w₃}, R w₁ w₂ → R w₂ w₃ → R w₁ w₃) {x : Action σ α} {f : α → Action σ β}
    (hx : ∀ w, R w (start x w).2) (hf : ∀ a w, R w (start (f a) w).2) (w : World σ) :
    R w (start (x >>= f) w).2 := by
  have h := hx w
  rw [start_bind]
  generalize start x w = answer at h ⊢
  rcases answer with ⟨failure | a, w₁⟩
  · -- the first step failed, and the rest is not done
    exact h
  · exact htrans h (hf a w₁)

theorem Calm.bind {x : Action σ α} {f : α → Action σ β} (hx : x.Calm) (hf : ∀ a, (f a).Calm) :
    (x >>= f).Calm :=
  bind_of_trans (R := World.Calm) .trans hx hf

theorem Keeps.bind {x : Action σ α} {f : α → Action σ β} (hx : x.Keeps) (hf : ∀ a, (f a).Keeps) :
    (x >>= f).Keeps :=
  bind_of_trans (R := World.Kept) .trans hx hf

theorem Keeps.map {x : Action σ α} (h : x.Keeps) (f : α → β) : (f <$> x).Keeps := by
  rw [map_eq_pure_bind]
  exact h.bind fun a => keeps_pure (f a)

theorem keeps_mapM {f : α → Action σ β} (h : ∀ a, (f a).Keeps) (items : List α) :
    (items.mapM f).Keeps := by
  induction items with
  | nil => exact keeps_pure _
  | cons a rest ih =>
      rw [List.mapM_cons]
      exact (h a).bind fun b => ih.bind fun bs => keeps_pure _

/-- A session that fails has put the table back. -/
theorem Calm.session_atomic {x : Action σ α} (h : x.Calm) : (session x).Atomic := by
  intro w failure w' hx
  have hc := h w
  rw [start_session] at hx
  generalize start x w = answer at hc hx
  rcases answer with ⟨failure' | a, w₁⟩
  · -- the table is all that had changed, and it was put back
    cases hx
    exact ⟨⟨hc.readOnly, hc.artifacts, hc.log⟩, rfl⟩
  · cases hx

theorem Calm.session {x : Action σ α} (h : x.Calm) : (session x).Calm := by
  intro w
  have hc := h w
  rw [start_session]
  generalize start x w = answer at hc ⊢
  rcases answer with ⟨failure | a, w₁⟩
  · exact ⟨hc.readOnly, hc.artifacts, hc.log⟩
  · exact hc

theorem Calm.session_calm_and_atomic {x : Action σ α} (h : x.Calm) :
    (Action.session x).Calm ∧ (Action.session x).Atomic := ⟨h.session, h.session_atomic⟩

theorem Keeps.session {x : Action σ α} (h : x.Keeps) : (session x).Keeps := by
  intro w
  have hk := h w
  rw [start_session]
  generalize start x w = answer at hk ⊢
  rcases answer with ⟨failure | a, w₁⟩
  · exact ⟨⟨hk.readOnly, hk.artifacts, hk.log⟩, rfl⟩
  · exact hk

/-! ## Atomic actions -/

/-- An atomic action may come after one that keeps everything. -/
theorem Keeps.bind_atomic {x : Action σ α} {f : α → Action σ β} (hx : x.Keeps)
    (hf : ∀ a, (f a).Atomic) : (x >>= f).Atomic := by
  intro w failure w' h
  rcases start_bind_eq_error.mp h with h | ⟨a, w₁, h1, h2⟩
  · exact hx.of_start h
  · -- nothing had changed yet when the second action began
    exact (hx.of_start h1).trans (hf a w₁ failure w' h2)

/-- A total action may come after an atomic one. -/
theorem Atomic.bind_total {x : Action σ α} {f : α → Action σ β} (hx : x.Atomic)
    (hf : ∀ a, (f a).Total) : (x >>= f).Atomic := by
  intro w failure w' h
  rcases start_bind_eq_error.mp h with h | ⟨a, w₁, _, h2⟩
  · exact hx w failure w' h
  · -- past the first action there is no failure any more
    obtain ⟨b, w₂, hok⟩ := hf a w₁
    rw [hok] at h2
    cases h2

theorem total_pure (a : α) : (pure a : Action σ α).Total := fun w => ⟨a, w, rfl⟩

theorem total_note (topic : Log.Topic) (message : String) :
    (note topic message : Action σ Unit).Total := fun _ => ⟨(), _, rfl⟩

theorem total_modify (f : World σ → World σ) : (modify f : Action σ PUnit).Total :=
  fun w => ⟨⟨⟩, f w, rfl⟩

theorem total_get : (get : Action σ (World σ)).Total := fun w => ⟨w, w, rfl⟩

theorem Atomic.map {x : Action σ α} (h : x.Atomic) (f : α → β) : (f <$> x).Atomic := by
  rw [map_eq_pure_bind]
  exact h.bind_total fun a => total_pure (f a)

theorem Total.bind {x : Action σ α} {f : α → Action σ β} (hx : x.Total) (hf : ∀ a, (f a).Total) :
    (x >>= f).Total := by
  intro w
  obtain ⟨a, w₁, h1⟩ := hx w
  obtain ⟨b, w₂, h2⟩ := hf a w₁
  exact ⟨b, w₂, start_bind_eq_ok.mpr ⟨a, w₁, h1, h2⟩⟩

/-- An action that neither fails nor changes anything gives a result. -/
theorem Total.of_keeps {x : Action σ α} (hx : x.Total) (hk : x.Keeps) (w : World σ) :
    ∃ a w', w.Kept w' ∧ start x w = (.ok a, w') := by
  obtain ⟨a, w', h⟩ := hx w
  exact ⟨a, w', hk.of_start h, h⟩

end Action

end PluginRegistry
