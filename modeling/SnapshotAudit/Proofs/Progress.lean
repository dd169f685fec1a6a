/-!
This module contains what it means that a system comes to a goal whatever the order in which things
happen in it.
-/

namespace SnapshotAudit

/--
Whatever happens, a goal is reached: as long as it is not, something can happen, and it cannot go on
for ever without reaching it.
-/
inductive Comes {σ : Type} (step : σ → σ → Prop) (goal : σ → Prop) : σ → Prop where
  | now {state : σ} (reached : goal state) : Comes step goal state
  | later {state : σ} (possible : ∃ next, step state next)
    (always : ∀ next, step state next → Comes step goal next) : Comes step goal state

theorem Comes.mono {σ : Type} {step : σ → σ → Prop} {goal other : σ → Prop} {state : σ}
    (h : Comes step goal state) (hgoal : ∀ state, goal state → other state)
    : Comes step other state := by
  induction h with
  | now reached => exact .now (hgoal _ reached)
  | later possible _ ih => exact .later possible ih

/--
A goal is reached when something can happen as long as it is not, and when whatever happens until
then takes some of a measure away that cannot go below nothing.
-/
theorem Comes.of_measure {σ : Type} {step : σ → σ → Prop} {goal : σ → Prop}
    (valid : σ → Prop) (measure : σ → Nat)
    (progress : ∀ state, valid state → goal state ∨ ∃ next, step state next)
    (decreases : ∀ state next, valid state → ¬goal state → step state next →
      valid next ∧ measure next < measure state)
    {state : σ} (h : valid state) : Comes step goal state := by
  induction hn : measure state using Nat.strongRecOn generalizing state with
  | _ n ih =>
    by_cases hgoal : goal state
    . exact .now hgoal
    . apply Comes.later ((progress state h).resolve_left hgoal)
      intro next hstep
      obtain ⟨hnext, hless⟩ := decreases state next h hgoal hstep
      exact ih (measure next) (hn ▸ hless) hnext rfl

end SnapshotAudit
