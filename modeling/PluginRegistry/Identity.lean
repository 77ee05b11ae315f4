/-!
# The acting user

A block binds a user while it runs, and the user from before is back when it is left, normally or by
a failure. The bound user is kept in a variable: entering a block sets it and gives out a token, and
the token sets it back. Who acts is found by a resolver; the usual one gives the user that is bound.
-/

namespace PluginRegistry

/-- Answers who acts, each time it is asked. The argument counts the questions before. -/
abbrev Resolver := Nat → Option String

namespace Identity

/-- Always gives the same user. -/
def bound (user : Option String) : Resolver := fun _ => user

/-- Gives one answer after the other, and then none. -/
def scripted (answers : List (Option String)) : Resolver := fun n => (answers[n]?).join

/-- The first of the names that is there and not empty, or the last resort. -/
def choose (lastResort : String) (names : List (Option String)) : String :=
  (names.findSome? fun name => name.filter (· ≠ "")).getD lastResort

/-! ## The variable -/

/-- What undoes one setting of the variable: the user from before, under a number of its own. -/
structure Token where
  number : Nat
  before : Option String

/-- The variable: the bound user, how many tokens were given out, and which of them were used. -/
structure Slot where
  current : Option String
  issued : Nat
  used : List Nat

namespace Slot

/-- Nobody was bound yet. -/
def initial : Slot := ⟨none, 0, []⟩

/-- Binds a user. -/
def bind (user : Option String) (s : Slot) : Token × Slot :=
  (⟨s.issued, s.current⟩, { s with current := user, issued := s.issued + 1 })

/-- Binds the user from before again. A token that was used cannot be used a second time. -/
def restore (token : Token) (s : Slot) : Option Slot :=
  if token.number ∈ s.used then none
  else some { s with current := token.before, used := token.number :: s.used }

end Slot

/-- How a block was left: what came of its body, whether its token was refused, and the variable
after it. -/
structure Left (α : Type) where
  result : α
  refused : Bool
  slot : Slot

/-- Runs the body of a block while a user is bound. The body ends normally or by a failure, and the
variable is set back in either case. -/
def Slot.whileBound {α : Type} (user : Option String) (body : Slot → α × Slot) (s : Slot) :
    Left α :=
  let (token, bound) := s.bind user
  let (result, inner) := body bound
  match inner.restore token with
  | none => ⟨result, true, inner⟩
  | some outer => ⟨result, false, outer⟩

/-! ## Blocks -/

/-- A step of a program that binds users. -/
inductive Step where
  | ask
  | fail
  | within (user : Option String) (body : List Step)
  | attempt (body : List Step)

/-- What a program shows: the user at each question, and how each attempt ended. -/
inductive Event where
  | user (user : Option String)
  | completed
  | caught
  deriving DecidableEq

/-- How a program went: what it showed, and whether it failed. -/
structure Outcome where
  events : List Event
  failed : Bool
  deriving DecidableEq

mutual

/-- Runs a step with the variable. -/
def Step.run : Step → Slot → Outcome × Slot
  | .ask, slot => (⟨[.user slot.current], false⟩, slot)
  | .fail, slot => (⟨[], true⟩, slot)
  | .within user body, slot =>
    let left := slot.whileBound user fun bound => runAll body bound
    ({ left.result with failed := left.refused || left.result.failed }, left.slot)
  | .attempt body, slot =>
    let (inner, slot) := runAll body slot
    (⟨inner.events ++ [if inner.failed then .caught else .completed], false⟩, slot)

/-- Runs the steps up to the first that fails. -/
def runAll : List Step → Slot → Outcome × Slot
  | [], slot => (⟨[], false⟩, slot)
  | step :: rest, slot =>
    let (first, slot) := step.run slot
    if first.failed then (first, slot)
    else
      let (later, slot) := runAll rest slot
      ({ later with events := first.events ++ later.events }, slot)

end

end Identity

end PluginRegistry
