import PluginRegistry.Proofs.History

/-!
# Programs that bind users

A program binds users in blocks, asks who is bound, calls the registry, throws, and handles what was
thrown. `Program.run` keeps the bound user in one variable: a block sets it, and sets it back by its
token when it is left. `Program.eval` has no variable. It hands the user of the innermost block
down, so that there is nothing to set back. Both show the same.

A token can be used once only, so the variable alone does not carry the induction. It needs that the
token of a block was not used inside of it, and that is so because whatever is used inside was given
out inside (`Slot.Balanced`).
-/

namespace PluginRegistry

/-- The registry that asks for the bound user, while that is the given one. -/
def Registry.boundTo {σ : Type} (r : Registry σ) (user : Option String) : Registry σ :=
  { r with resolver := some (Identity.bound user) }

namespace Identity

/-! ## The variable -/

namespace Slot

/-- Every token that was used was given out. -/
def Fresh (s : Slot) : Prop := ∀ n ∈ s.used, n < s.issued

/-- What a program leaves of the variable. -/
structure Balanced (s s' : Slot) : Prop where
  /-- The same user is bound. -/
  current : s'.current = s.current
  /-- No token is given out twice. -/
  issued : s.issued ≤ s'.issued
  /-- The tokens that were used were given out in between. -/
  used : ∀ n ∈ s'.used, n ∈ s.used ∨ s.issued ≤ n ∧ n < s'.issued

variable {s s' s'' : Slot}

theorem fresh_initial : initial.Fresh := by
  intro n hn
  cases hn

theorem Balanced.refl (s : Slot) : s.Balanced s := ⟨rfl, Nat.le_refl _, fun _ hn => .inl hn⟩

theorem Balanced.fresh (h : s.Balanced s') (hs : s.Fresh) : s'.Fresh := by
  intro n hn
  rcases h.used n hn with hold | ⟨_, hlt⟩
  · exact Nat.lt_of_lt_of_le (hs n hold) h.issued
  · exact hlt

theorem Balanced.trans (h : s.Balanced s') (h' : s'.Balanced s'') : s.Balanced s'' where
  current := h'.current.trans h.current
  issued := Nat.le_trans h.issued h'.issued
  used := by
    intro n hn
    have hle := h.issued
    have hle' := h'.issued
    rcases h'.used n hn with hn | ⟨hge, hlt⟩
    · rcases h.used n hn with hold | ⟨hge, hlt⟩
      · exact .inl hold
      · exact .inr ⟨hge, by omega⟩
    · exact .inr ⟨by omega, hlt⟩

theorem fresh_bind (user : Option String) (hs : s.Fresh) : (s.bind user).2.Fresh :=
  fun n hn => Nat.lt_succ_of_lt (hs n hn)

/-- **The token of a block is good when the block is left**, and the variable is as before. -/
theorem Balanced.restore {user : Option String} (hs : s.Fresh)
    (h : (s.bind user).2.Balanced s') :
    ∃ s'', s'.restore (s.bind user).1 = some s'' ∧ s.Balanced s'' := by
  have hissued : s.issued + 1 ≤ s'.issued := h.issued
  have hunused : s.issued ∉ s'.used := by
    intro hmem
    rcases h.used _ hmem with hold | ⟨hge, _⟩
    · exact Nat.lt_irrefl _ (hs _ hold)
    · exact Nat.lt_irrefl _ hge
  refine ⟨_, if_neg hunused, rfl, Nat.le_of_succ_le hissued, fun n hn => ?_⟩
  rcases List.mem_cons.mp hn with rfl | hn
  · exact .inr ⟨Nat.le_refl _, hissued⟩
  · -- what was used inside was given out inside, after this token
    rcases h.used n hn with hold | ⟨hge, hlt⟩
    · exact .inl hold
    · exact .inr ⟨Nat.le_of_succ_le hge, hlt⟩

/-- A block whose body leaves the variable balanced gives what its body gives, and leaves the
variable balanced as well. -/
theorem whileBound_of_balanced {α : Type} {user : Option String} {body : Slot → α × Slot}
    {result : α} (hs : s.Fresh) (hbody : body (s.bind user).2 = (result, s'))
    (h : (s.bind user).2.Balanced s') :
    ∃ outer, s.whileBound user body = ⟨result, false, outer⟩ ∧ s.Balanced outer := by
  obtain ⟨outer, hrestore, hback⟩ := h.restore hs
  refine ⟨outer, ?_, hback⟩
  unfold whileBound
  dsimp only
  rw [hbody]
  dsimp only
  rw [hrestore]

/-- Two bodies that leave the same variable behind leave a block in the same way. -/
theorem whileBound_congr {α β : Type} {user : Option String} (body : Slot → α × Slot)
    (body' : Slot → β × Slot) (h : (body (s.bind user).2).2 = (body' (s.bind user).2).2) :
    ∃ refused outer, s.whileBound user body = ⟨(body (s.bind user).2).1, refused, outer⟩ ∧
      s.whileBound user body' = ⟨(body' (s.bind user).2).1, refused, outer⟩ := by
  unfold whileBound
  dsimp only
  rw [h]
  cases (body' (s.bind user).2).2.restore (s.bind user).1 with
  | none => exact ⟨_, _, rfl, rfl⟩
  | some outer => exact ⟨_, _, rfl, rfl⟩

end Slot

/-! ## Programs -/

/-- What can be thrown: something of the program's own, the failure of a call, or the refusal of a
token that was used before. -/
inductive Thrown where
  | raised (text : String)
  | failed (failure : Failure)
  | tokenUsed

/-- A call that was answered: who was bound, and the states of the registry around it. -/
structure Served (σ : Type) where
  scope : Option String
  call : Call
  before : World σ
  answer : Except Failure Answer
  after : World σ

/-- What a program shows. -/
inductive Sight (σ : Type) where
  /-- The answer to the question who is bound. -/
  | user (user : Option String)
  /-- A mark that the program makes. -/
  | mark (text : String)
  /-- A call and its answer. -/
  | served (served : Served σ)
  /-- A block was left: who was bound before it, and who is now. -/
  | left (before after : Option String)

/-- A program. What it does next may depend on all that was seen so far, and how something thrown is
handled may depend on what it is. To pass it on is to throw it again. -/
inductive Program (σ : Type) where
  | done
  | throw (thrown : Thrown)
  | ask
  | mark (text : String)
  | call (call : Call)
  | given (next : List (Sight σ) → Program σ)
  | seq (first second : Program σ)
  | within (user : Option String) (body : Program σ)
  | attempt (body : Program σ) (handler : Thrown → Program σ)

/-- Where a program is: the state of the registry, and what was seen so far. -/
structure Stage (σ : Type) where
  world : World σ
  seen : List (Sight σ)

variable {σ : Type}

/-- One more thing was seen. -/
def Stage.see (sight : Sight σ) (stage : Stage σ) : Stage σ :=
  { stage with seen := stage.seen ++ [sight] }

/-- Calls the registry while a user is bound. -/
def serve (r : Registry σ) (user : Option String) (c : Call) (stage : Stage σ) :
    Option Thrown × Stage σ :=
  let (answer, world) := (r.boundTo user).answer c stage.world
  let served : Served σ := ⟨user, c, stage.world, answer, world⟩
  (match answer with | .ok _ => none | .error failure => some (.failed failure),
    { stage with world }.see (.served served))

namespace Program

/-- Runs a program with the variable: what it threw in the end, if anything, where it got to, and
the variable after it. -/
def run (r : Registry σ) : Program σ → Stage σ → Slot → (Option Thrown × Stage σ) × Slot
  | .done, stage, slot => ((none, stage), slot)
  | .throw thrown, stage, slot => ((some thrown, stage), slot)
  | .ask, stage, slot => ((none, stage.see (.user slot.current)), slot)
  | .mark text, stage, slot => ((none, stage.see (.mark text)), slot)
  | .call c, stage, slot => (serve r slot.current c stage, slot)
  | .given next, stage, slot => (next stage.seen).run r stage slot
  | .seq first second, stage, slot =>
    match first.run r stage slot with
    | ((none, stage), slot) => second.run r stage slot
    | ((some thrown, stage), slot) => ((some thrown, stage), slot)
  | .within user body, stage, slot =>
    let left := slot.whileBound user fun bound => body.run r stage bound
    let (thrown?, stage) := left.result
    ((if left.refused then some .tokenUsed else thrown?,
      stage.see (.left slot.current left.slot.current)), left.slot)
  | .attempt body handler, stage, slot =>
    match body.run r stage slot with
    | ((none, stage), slot) => ((none, stage), slot)
    | ((some thrown, stage), slot) => (handler thrown).run r stage slot

/-- Evaluates a program where a user is in scope. -/
def eval (r : Registry σ) : Program σ → Stage σ → Option String → Option Thrown × Stage σ
  | .done, stage, _ => (none, stage)
  | .throw thrown, stage, _ => (some thrown, stage)
  | .ask, stage, scope => (none, stage.see (.user scope))
  | .mark text, stage, _ => (none, stage.see (.mark text))
  | .call c, stage, scope => serve r scope c stage
  | .given next, stage, scope => (next stage.seen).eval r stage scope
  | .seq first second, stage, scope =>
    match first.eval r stage scope with
    | (none, stage) => second.eval r stage scope
    | (some thrown, stage) => (some thrown, stage)
  | .within user body, stage, scope =>
    let (thrown?, stage) := body.eval r stage user
    (thrown?, stage.see (.left scope scope))
  | .attempt body handler, stage, scope =>
    match body.eval r stage scope with
    | (none, stage) => (none, stage)
    | (some thrown, stage) => (handler thrown).eval r stage scope

/-- **The variable shows what the environment shows.** From a fresh variable a program ends in the
same way and at the same place, and it leaves the variable balanced. -/
theorem run_eq_eval (r : Registry σ) (p : Program σ) (stage : Stage σ) {slot : Slot}
    (hslot : slot.Fresh) :
    ∃ slot', p.run r stage slot = (p.eval r stage slot.current, slot') ∧ slot.Balanced slot' := by
  induction p generalizing slot stage with
  | done => exact ⟨slot, rfl, .refl slot⟩
  | throw thrown => exact ⟨slot, rfl, .refl slot⟩
  | ask => exact ⟨slot, rfl, .refl slot⟩
  | mark text => exact ⟨slot, rfl, .refl slot⟩
  | call c => exact ⟨slot, rfl, .refl slot⟩
  | given next ih => exact ih stage.seen stage hslot
  | seq first second ihfirst ihsecond =>
      obtain ⟨slot₁, hfirst, hbalanced⟩ := ihfirst stage hslot
      unfold run eval
      rw [hfirst]
      rcases first.eval r stage slot.current with ⟨_ | thrown, stage₁⟩
      · -- the first part ended normally, so the second one goes on with the same user
        obtain ⟨slot₂, hsecond, hbalanced'⟩ := ihsecond stage₁ (hbalanced.fresh hslot)
        rw [hbalanced.current] at hsecond
        exact ⟨slot₂, hsecond, hbalanced.trans hbalanced'⟩
      · exact ⟨slot₁, rfl, hbalanced⟩
  | within user body ih =>
      obtain ⟨inner, hbody, hbalanced⟩ := ih stage (slot.fresh_bind user hslot)
      obtain ⟨outer, hleft, hback⟩ := Slot.whileBound_of_balanced hslot hbody hbalanced
      refine ⟨outer, ?_, hback⟩
      simp only [run, eval]
      rw [hleft, hback.current]
      rfl
  | attempt body handler ihbody ihhandler =>
      obtain ⟨slot₁, hbody, hbalanced⟩ := ihbody stage hslot
      unfold run eval
      rw [hbody]
      rcases body.eval r stage slot.current with ⟨_ | thrown, stage₁⟩
      · exact ⟨slot₁, rfl, hbalanced⟩
      · -- whatever blocks the failure cut through, its handler starts with the user from before
        obtain ⟨slot₂, hhandler, hbalanced'⟩ :=
          ihhandler thrown stage₁ (hbalanced.fresh hslot)
        rw [hbalanced.current] at hhandler
        exact ⟨slot₂, hhandler, hbalanced.trans hbalanced'⟩

end Program

/-! ## Steps are programs -/

mutual

/-- A step as a program. An attempt is marked by how it ended. -/
def Step.program : Step → Program σ
  | .ask => .ask
  | .fail => .throw (.raised "boom")
  | .within user body => .within user (programOf body)
  | .attempt body => .attempt (.seq (programOf body) (.mark "completed")) fun _ => .mark "caught"

/-- Steps as a program. -/
def programOf : List Step → Program σ
  | [] => .done
  | step :: rest => .seq step.program (programOf rest)

end

/-- What a step shows by a sight. -/
def Sight.event? : Sight σ → Option Event
  | .user name => some (.user name)
  | .mark text => some (if text = "completed" then .completed else .caught)
  | .served _ | .left _ _ => none

/-- What steps have shown so far. -/
def Stage.events (stage : Stage σ) : List Event := stage.seen.filterMap Sight.event?

@[simp] theorem Stage.events_see (sight : Sight σ) (stage : Stage σ) :
    (stage.see sight).events = stage.events ++ sight.event?.toList := by
  unfold events see
  rw [List.filterMap_append, List.filterMap_cons]
  cases sight.event? with
  | none => rfl
  | some event => rfl

/-- Where a program got to from a stage, if it went like a step. -/
structure Outcome.Shown (outcome : Outcome) (stage : Stage σ) (ended : Option Thrown × Stage σ) :
    Prop where
  /-- It showed the same. -/
  events : ended.2.events = stage.events ++ outcome.events
  /-- It failed if the step did. -/
  failed : ended.1.isSome = outcome.failed

mutual

/-- A step goes like its program. -/
theorem Step.run_program (r : Registry σ) (step : Step) (stage : Stage σ) (slot : Slot) :
    (step.run slot).1.Shown stage (step.program.run r stage slot).1 ∧
      (step.program.run r stage slot).2 = (step.run slot).2 :=
  match step with
  | .ask => ⟨⟨Stage.events_see _ stage, rfl⟩, rfl⟩
  | .fail => ⟨⟨(List.append_nil _).symm, rfl⟩, rfl⟩
  | .within user body => by
      obtain ⟨hshown, hslot⟩ := run_programOf r body stage (slot.bind user).2
      obtain ⟨refused, outer, hprogram, hstep⟩ :=
        Slot.whileBound_congr (fun bound => (programOf body).run r stage bound)
          (fun bound => runAll body bound) hslot
      simp only [Step.run, Step.program, Program.run]
      rw [hprogram, hstep]
      have hevents : ∀ before after : Option String,
          (((programOf body).run r stage (slot.bind user).2).1.2.see (.left before after)).events =
            stage.events ++ (runAll body (slot.bind user).2).1.events := by
        intro before after
        rw [Stage.events_see, hshown.events]
        exact List.append_nil _
      cases refused with
      | false => exact ⟨⟨hevents _ _, hshown.failed⟩, rfl⟩
      | true => exact ⟨⟨hevents _ _, rfl⟩, rfl⟩
  | .attempt body => by
      obtain ⟨hshown, hslot⟩ := run_programOf r body stage slot
      simp only [Step.run, Step.program, Program.run]
      generalize (programOf body).run r stage slot = ended at hshown hslot
      obtain ⟨⟨_ | thrown, stage'⟩, slot'⟩ := ended
      · have hfailed : (runAll body slot).1.failed = false := hshown.failed.symm
        rw [hfailed]
        exact ⟨⟨by rw [Stage.events_see, hshown.events, List.append_assoc]; rfl, rfl⟩, hslot⟩
      · have hfailed : (runAll body slot).1.failed = true := hshown.failed.symm
        rw [hfailed]
        exact ⟨⟨by rw [Stage.events_see, hshown.events, List.append_assoc]; rfl, rfl⟩, hslot⟩

/-- **Steps go like their program.** -/
theorem run_programOf (r : Registry σ) (steps : List Step) (stage : Stage σ) (slot : Slot) :
    (runAll steps slot).1.Shown stage ((programOf steps).run r stage slot).1 ∧
      ((programOf steps).run r stage slot).2 = (runAll steps slot).2 :=
  match steps with
  | [] => ⟨⟨(List.append_nil _).symm, rfl⟩, rfl⟩
  | step :: rest => by
      obtain ⟨hshown, hslot⟩ := step.run_program r stage slot
      simp only [runAll, programOf, Program.run]
      generalize step.program.run r stage slot = ended at hshown hslot
      obtain ⟨⟨_ | thrown, stage₁⟩, slot₁⟩ := ended
      · -- the first step ended normally
        have hfailed : (step.run slot).1.failed = false := hshown.failed.symm
        obtain ⟨hrest, hslot'⟩ := run_programOf r rest stage₁ slot₁
        cases hslot
        rw [hfailed, if_neg Bool.false_ne_true]
        exact ⟨⟨by rw [hrest.events, hshown.events, List.append_assoc], hrest.failed⟩, hslot'⟩
      · have hfailed : (step.run slot).1.failed = true := hshown.failed.symm
        rw [hfailed, if_pos rfl]
        exact ⟨hshown, hslot⟩

end

end Identity

end PluginRegistry
