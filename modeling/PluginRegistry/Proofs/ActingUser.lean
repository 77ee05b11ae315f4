import PluginRegistry.Proofs.History

/-!
# Who acts

A change of a release bears the name of the acting user: the one that is named for the operation,
else the one that the resolver gives, else nobody known. What the resolver gives depends on how often
it was asked before, so the state that a call starts from decides who acts in it. Reading a record
asks nobody.
-/

namespace PluginRegistry

/-- The user that is named for an operation. -/
def Operation.user? : Operation → Option String
  | .delete _ user | .createRelease _ _ user | .upsertRelease _ _ user | .deleteRelease _ _ user
  | .preferRelease _ _ _ user => user
  | _ => none

/-! ## Actions that ask nobody -/

namespace Action

variable {σ α β : Type}

/-- The acting user is not asked for. -/
def Unasking (x : Action σ α) : Prop := ∀ w : World σ, (start x w).2.asked = w.asked

theorem Unasking.of_start {x : Action σ α} (h : x.Unasking) {w w' : World σ} {a : Except Failure α}
    (hx : start x w = (a, w')) : w'.asked = w.asked := by
  have hw := h w
  rw [hx] at hw
  exact hw

theorem Unasking.bind {x : Action σ α} {f : α → Action σ β} (hx : x.Unasking)
    (hf : ∀ a, (f a).Unasking) : (x >>= f).Unasking :=
  bind_of_trans (R := fun w w' => w'.asked = w.asked) (fun h h' => h'.trans h) hx hf

theorem unasking_ofExcept {ε : Type} (failure : ε → Failure) (x : Except ε α) :
    (ofExcept failure x : Action σ α).Unasking := by
  intro w
  cases x with
  | ok a => rfl
  | error e => rfl

theorem Unasking.session {x : Action σ α} (h : x.Unasking) : (session x).Unasking := by
  intro w
  have hw := h w
  rw [start_session]
  generalize start x w = answer at hw ⊢
  rcases answer with ⟨failure | a, w₁⟩
  · exact hw
  · exact hw

end Action

namespace Catalog

open PluginRegistry.Action

variable {σ : Type}

theorem unasking_measure (timing : Timing) (query : Query) :
    (measure timing query : Action σ Unit).Unasking := by
  intro w
  unfold measure
  dsimp only
  split
  · rfl
  · rfl

theorem unasking_table (topic : Log.Topic) (what : String) :
    (table topic what : Action σ Table).Unasking := by
  intro w
  unfold table
  rw [start_bind, Action.start_get]
  dsimp only
  split
  · rfl
  · rfl

theorem unasking_get (timing : Timing) (id : String) :
    (get timing id : Action σ (Option Row)).Unasking := by
  refine (unasking_table _ _).bind fun _ => ?_
  dsimp only
  split
  · exact fun _ => rfl
  · exact (unasking_measure _ _).bind fun _ _ => rfl

theorem unasking_byId (timing : Timing) (id : String) :
    (byId timing id : Action σ Plugin).Unasking := by
  have hbyId? : (byId? timing id : Action σ (Option Plugin)).Unasking := by
    refine ((unasking_get _ _).bind fun row => ?_).session
    cases row with
    | none => exact fun _ => rfl
    | some row => exact (unasking_ofExcept _ _).bind fun _ _ => rfl
  refine hbyId?.bind fun found => ?_
  cases found with
  | none => exact fun _ => rfl
  | some p => exact fun _ => rfl

end Catalog

/-! ## The acting user -/

namespace Registry

variable {σ : Type}

/-- Who acts, where somebody was asked that often before. -/
def actorAt (r : Registry σ) (user : Option String) (asked : Nat) : String :=
  Identity.choose r.anonymousUser [user, r.resolver.bind fun resolver => resolver asked]

/-- Whoever is found acts. -/
theorem actor_eq_ok {r : Registry σ} {user : Option String} {w w' : World σ} {name : String}
    (h : (r.actor user).start w = (.ok name, w')) : name = r.actorAt user w.asked := by
  unfold actor at h
  unfold actorAt Identity.choose
  split at h
  · -- a name that is given counts, whatever the resolver would say
    rename_i hnamed
    cases h
    rw [List.findSome?_cons, hnamed]
    rfl
  · rename_i hnamed hresolver
    cases h
    rw [List.findSome?_cons, hnamed, hresolver]
    rfl
  · rename_i resolver hnamed hresolver
    cases h
    rw [List.findSome?_cons, hnamed, hresolver]
    rfl

end Registry

end PluginRegistry
