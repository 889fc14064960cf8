import Mathlib.Logic.Basic

/-!
# Runs of a machine that may stop

A machine is a step function `σ → σ × Bool`: the new state, and whether
the machine stopped in this step. `run` iterates it for at most `n`
steps and stays where it is once it has stopped; `Along` says that a
predicate holds of every state from which one of these steps is taken.

`lockstep` lifts what one step preserves to a whole run, for two machines
side by side: if one step of each keeps a relation and stops in both or
in neither, so does any number of steps.
-/

namespace Runs

variable {σ τ : Type*}

/-- At most `n` steps from `s`: the state reached, and whether the
machine stopped on the way. -/
def run (step : σ → σ × Bool) : Nat → σ → σ × Bool
  | 0, s => (s, false)
  | n + 1, s => if (step s).2 then ((step s).1, true) else run step n (step s).1

/-- `P` holds of every state from which one of the first `n` steps is
taken. -/
def Along (step : σ → σ × Bool) (P : σ → Prop) : Nat → σ → Prop
  | 0, _ => True
  | n + 1, s => P s ∧ ((step s).2 = false → Along step P n (step s).1)

@[simp] theorem run_zero (step : σ → σ × Bool) (s : σ) : run step 0 s = (s, false) := rfl

theorem run_succ_stop {step : σ → σ × Bool} {s : σ} (h : (step s).2 = true) (n : Nat) :
    run step (n + 1) s = ((step s).1, true) := by
  rw [run, if_pos h]

theorem run_succ_go {step : σ → σ × Bool} {s : σ} (h : (step s).2 = false) (n : Nat) :
    run step (n + 1) s = run step n (step s).1 := by
  rw [run, if_neg (by simp [h])]

/-- A run that has not stopped, cut at its last step. -/
theorem run_succ_last {step : σ → σ × Bool} :
    ∀ {n : Nat} {s : σ}, (run step (n + 1) s).2 = false →
      (run step n s).2 = false ∧ step (run step n s).1 = run step (n + 1) s
  | 0, s, h => by
      cases hgo : (step s).2 with
      | true => rw [run_succ_stop hgo] at h; contradiction
      | false =>
          rw [run_succ_go hgo]
          exact ⟨rfl, Prod.ext rfl hgo⟩
  | n + 1, s, h => by
      cases hgo : (step s).2 with
      | true => rw [run_succ_stop hgo] at h; contradiction
      | false =>
          rw [run_succ_go hgo] at h
          rw [run_succ_go hgo n, run_succ_go hgo (n + 1)]
          exact run_succ_last h

/-- Two machines whose single steps keep `R`, and stop together, keep
`R` and stop together over runs of any length. -/
theorem lockstep {f : σ → σ × Bool} {g : τ → τ × Bool} {R : σ → τ → Prop} {P : τ → Prop}
    (hstep : ∀ s t, R s t → P t → R (f s).1 (g t).1 ∧ (f s).2 = (g t).2) :
    ∀ {n : Nat} {s : σ} {t : τ}, R s t → Along g P n t →
      R (run f n s).1 (run g n t).1 ∧ (run f n s).2 = (run g n t).2
  | 0, _, _, hR, _ => ⟨hR, rfl⟩
  | n + 1, s, t, hR, hP => by
      obtain ⟨hR', hstop⟩ := hstep s t hR hP.1
      cases hgo : (g t).2 with
      | true =>
          rw [run_succ_stop hgo, run_succ_stop (hstop.trans hgo)]
          exact ⟨hR', rfl⟩
      | false =>
          rw [run_succ_go hgo, run_succ_go (hstop.trans hgo)]
          exact lockstep hstep hR' (hP.2 hgo)

/-! ## Running a state monad -/

section StateMonad

variable {σ α β : Type}

theorem bind_run (x : StateM σ α) (k : α → StateM σ β) (s : σ) :
    (x >>= k) s = k (x s).1 (x s).2 := rfl

theorem pure_run (v : α) (s : σ) : (pure v : StateM σ α) s = (v, s) := rfl

theorem get_run (s : σ) : (get : StateM σ σ) s = (s, s) := rfl

theorem modify_run (g : σ → σ) (s : σ) :
    (modify g : StateM σ PUnit) s = ((), g s) := rfl

theorem discard_run (x : StateM σ α) (s : σ) :
    (discard x : StateM σ PUnit) s = ((), (x s).2) := rfl

theorem bind_of_run {x : StateM σ α} {s s' : σ} {a : α} (h : x s = (a, s'))
    (k : α → StateM σ β) : (x >>= k) s = k a s' := by
  rw [bind_run, h]

theorem get_bind_run (k : σ → StateM σ α) (s : σ) : (get >>= k) s = k s s := rfl

theorem modify_bind_run (g : σ → σ) (k : PUnit → StateM σ α) (s : σ) :
    (modify g >>= k) s = k () (g s) := rfl

theorem ite_run {c : Prop} [Decidable c] (x y : StateM σ α) (s : σ) :
    (if c then x else y : StateM σ α) s = if c then x s else y s := by
  split <;> rfl

/-- A branch on a computed condition. -/
theorem branch_run {x : StateM σ Bool} {s s' : σ} {b : Bool} (h : x s = (b, s'))
    (y z : StateM σ α) :
    (do if ← x then y else z : StateM σ α) s = if b then y s' else z s' := by
  rw [bind_run, h]
  cases b <;> rfl

end StateMonad

end Runs
