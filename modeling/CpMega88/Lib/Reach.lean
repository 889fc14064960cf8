/-!
# Reachable states

A transition system is given by its initial states and its step relation.
`Reachable.invariant` is the rule every safety proof about one uses: what
holds initially and is preserved by each step holds of every state
reached.
-/

variable {σ : Type}

inductive Reachable (init : σ → Prop) (next : σ → σ → Prop) : σ → Prop
  | start {s : σ} : init s → Reachable init next s
  | step {s t : σ} : Reachable init next s → next s t → Reachable init next t

namespace Reachable

variable {init : σ → Prop} {next : σ → σ → Prop}

theorem invariant {s : σ} (h : Reachable init next s) (Inv : σ → Prop)
    (hinit : ∀ s, init s → Inv s) (hnext : ∀ s t, Inv s → next s t → Inv t) : Inv s := by
  induction h with
  | start h0 => exact hinit _ h0
  | step _ hstep ih => exact hnext _ _ ih hstep

end Reachable
