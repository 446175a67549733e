import Mathlib

/-!
# Loops run on fuel

A `loop { .. }` whose body either returns from the enclosing function or goes round again is
modelled by its body: a function of the iteration's number and the loop's state to a `Step`, or
`none` for a panic. The loop is run for at most a given number of iterations. A run that spends
its fuel ends in `.next`, so "the loop returns" is stated as "some fuel gives `.done`".

The number of the iteration lets the body read an environment that answers differently each time
(a clock, a peer).

Two rules are proved: `Reaches.inv` says that an invariant of the body holds of every state a
run reaches, and the `run_eq_*` lemmas say what the run's outcome was reached through.
-/

namespace Loop

/-- What one iteration of a loop ends with. -/
inductive Step (σ α : Type) where
  /-- the loop returns `a` from the enclosing function -/
  | done (a : α)
  /-- the loop goes round again from state `s` -/
  | next (s : σ)
deriving DecidableEq

variable {σ α : Type} (body : Nat → σ → Option (Step σ α))

/-- What the loop returned, if it returned. -/
def Step.result? : Step σ α → Option α
  | .done a => some a
  | .next _ => none

@[simp] theorem Step.result?_eq_some {s : Step σ α} {a : α} : s.result? = some a ↔ s = .done a := by
  cases s <;> simp [Step.result?]

/-- At most `fuel` iterations of `body`, the first one numbered `n`. -/
def run : Nat → Nat → σ → Option (Step σ α)
  | 0, _, s => some (.next s)
  | fuel + 1, n, s =>
    match body n s with
    | none => none
    | some (.done a) => some (.done a)
    | some (.next s') => run fuel (n + 1) s'

/-- The run from state `s` at iteration `n` goes round to state `s'` at iteration `m`. -/
inductive Reaches : Nat → σ → Nat → σ → Prop
  | refl (n : Nat) (s : σ) : Reaches n s n s
  | step {n : Nat} {s s' : σ} {m : Nat} {s'' : σ} :
      body n s = some (.next s') → Reaches (n + 1) s' m s'' → Reaches n s m s''

variable {body}

section Run

variable {fuel n : Nat} {s s' : σ} {a : α}

@[simp] theorem run_zero : run body 0 n s = some (.next s) := rfl

/-- An iteration that goes round again leaves the rest of the run to the next iteration. -/
theorem run_succ_of_next (h : body n s = some (.next s')) :
    run body (fuel + 1) n s = run body fuel (n + 1) s' := by
  simp [run, h]

/-- An iteration that returns ends the run with its result. -/
theorem run_succ_of_done (h : body n s = some (.done a)) :
    run body (fuel + 1) n s = some (.done a) := by
  simp [run, h]

/-- An iteration that panics ends the run in a panic. -/
theorem run_succ_of_none (h : body n s = none) : run body (fuel + 1) n s = none := by
  simp [run, h]

end Run

namespace Reaches

variable {n m k : Nat} {s s' s'' : σ}

/-- Reaching is transitive. -/
theorem trans (h₁ : Reaches body n s m s') (h₂ : Reaches body m s' k s'') :
    Reaches body n s k s'' := by
  induction h₁ with
  | refl => exact h₂
  | step hb _ ih => exact .step hb (ih h₂)

/-- A reached state's next state is reached one iteration later. -/
theorem tail (h : Reaches body n s m s') {s'' : σ} (hb : body m s' = some (.next s'')) :
    Reaches body n s (m + 1) s'' :=
  h.trans (.step hb (.refl _ _))

/-- The invariant rule: what the body keeps holds of every state a run reaches. -/
theorem inv (Inv : Nat → σ → Prop)
    (hstep : ∀ n s s', Inv n s → body n s = some (.next s') → Inv (n + 1) s')
    (h : Reaches body n s m s') (hinv : Inv n s) : Inv m s' := by
  induction h with
  | refl => exact hinv
  | step hb _ ih => exact ih (hstep _ _ _ hinv hb)

end Reaches

section Outcome

variable {fuel n : Nat} {s s' : σ} {a : α}

/-- A run that returned reached a state whose iteration returned. -/
theorem run_eq_done (h : run body fuel n s = some (.done a)) :
    ∃ m s', Reaches body n s m s' ∧ body m s' = some (.done a) := by
  induction fuel generalizing n s with
  | zero => cases h
  | succ fuel ih =>
    match hb : body n s with
    | none => rw [run_succ_of_none hb] at h; cases h
    | some (.done a') =>
      rw [run_succ_of_done hb] at h
      cases h
      exact ⟨n, s, .refl _ _, hb⟩
    | some (.next s₁) =>
      rw [run_succ_of_next hb] at h
      obtain ⟨m, s', hr, hd⟩ := ih h
      exact ⟨m, s', .step hb hr, hd⟩

end Outcome

end Loop
