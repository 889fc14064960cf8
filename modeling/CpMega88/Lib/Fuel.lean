import CpMega88.Lib.Prog

/-!
# Fuel

A loop with no bound of its own takes the number of turns it may make, and
returns nothing when that was not enough. `Fueled` says that more fuel
changes nothing, `Halts` that some amount of it is enough: the loop ends,
and no trap is met. What comes of it then is told by `Yields`.

A sequence of events halts if and only if each event halts in the state
that it finds (`halts_runAll_iff`).
-/

namespace Prog

variable {σ α β ε : Type}

/-- Whatever returns with some fuel returns the same with more. -/
def Fueled (x : Nat → Prog σ α) : Prop :=
  ∀ ⦃m n : Nat⦄, m ≤ n → ∀ s r, x m s = some r → x n s = some r

/-- Some amount of fuel is enough. -/
def Halts (x : Nat → Prog σ α) (s : σ) : Prop := ∃ fuel r, x fuel s = some r

/-- This is what comes of it, if there is enough fuel. -/
def Yields (x : Nat → Prog σ α) (s : σ) (r : α × σ) : Prop := ∃ fuel, x fuel s = some r

namespace Fueled

theorem const (x : Prog σ α) : Fueled fun _ => x := fun _ _ _ _ _ h => h

theorem bind {x : Nat → Prog σ α} {k : Nat → α → Prog σ β} (hx : Fueled x)
    (hk : ∀ a, Fueled (k · a)) : Fueled fun n => x n >>= k n := by
  intro m n hle s r h
  obtain ⟨a, t, ht, hr⟩ := bind_eq_some.mp h
  exact bind_eq_some.mpr ⟨a, t, hx hle s _ ht, hk a hle t r hr⟩

theorem discard {x : Nat → Prog σ α} (hx : Fueled x) :
    Fueled fun n => (discard (x n) : Prog σ PUnit) := by
  rintro m n hle s ⟨u, t⟩ h
  obtain ⟨a, ha⟩ := discard_eq_some.mp h
  exact discard_eq_some.mpr ⟨a, hx hle s _ ha⟩

/-- The fuel does not decide what is returned. -/
theorem unique {x : Nat → Prog σ α} (hx : Fueled x) {m n : Nat} {s : σ} {r r' : α × σ}
    (h : x m s = some r) (h' : x n s = some r') : r = r' :=
  Option.some.inj ((hx (Nat.le_max_left m n) s r h).symm.trans (hx (Nat.le_max_right m n) s r' h'))

theorem runAll {step : Nat → ε → Prog σ Unit} (hstep : ∀ e, Fueled (step · e)) :
    ∀ es : List ε, Fueled fun n => runAll (step n) es
  | [] => const _
  | e :: es => (hstep e).bind fun _ => runAll hstep es

end Fueled

/-! ## What is yielded -/

theorem yields_bind {x : Nat → Prog σ α} {k : Nat → α → Prog σ β} {s : σ} {r : β × σ}
    (hx : Fueled x) (hk : ∀ a, Fueled (k · a)) : Yields (fun n => x n >>= k n) s r
      ↔ ∃ a t, Yields x s (a, t) ∧ Yields (k · a) t r := by
  constructor
  · rintro ⟨fuel, h⟩
    obtain ⟨a, t, ht, hr⟩ := bind_eq_some.mp h
    exact ⟨a, t, ⟨fuel, ht⟩, fuel, hr⟩
  · rintro ⟨a, t, ⟨m, ht⟩, n, hr⟩
    refine ⟨max m n, bind_eq_some.mpr ⟨a, t, ?_, ?_⟩⟩
    · exact hx (Nat.le_max_left m n) s _ ht
    · exact hk a (Nat.le_max_right m n) t r hr

theorem yields_after {x : Prog σ α} {k : Nat → α → Prog σ β} {s t : σ} {a : α} {r : β × σ}
    (h : x s = some (a, t)) : Yields (fun n => x >>= k n) s r ↔ Yields (k · a) t r :=
  exists_congr fun n => iff_of_eq (congrArg (· = some r) (bind_of_run h (k n)))

theorem yields_discard {x : Nat → Prog σ α} {s t : σ} {u : PUnit} :
    Yields (fun n => (discard (x n) : Prog σ PUnit)) s (u, t) ↔ ∃ a, Yields x s (a, t) :=
  (exists_congr fun _ => discard_eq_some).trans exists_comm

/-! ## Loops left from inside -/

/-- Do `x` until it yields something. -/
def attempts (x : Prog σ (Option α)) : Nat → Prog σ α
  | 0 => failure
  | left + 1 => do
    match ← x with
    | some a => return a
    | none => attempts x left

section Attempts

variable {x : Prog σ (Option α)} {s t : σ}

theorem attempts_done {a : α} (h : x s = some (some a, t)) (left : Nat) :
    attempts x (left + 1) s = some (a, t) := bind_of_run h _

theorem attempts_again (h : x s = some (none, t)) (left : Nat) :
    attempts x (left + 1) s = attempts x left t := bind_of_run h _

theorem attempts_eq_some {left : Nat} {r : α × σ} : attempts x (left + 1) s = some r
    ↔ ∃ found t, x s = some (found, t)
      ∧ match found with
        | some a => (a, t) = r
        | none => attempts x left t = some r := by
  refine bind_eq_some.trans (exists₂_congr fun found t => and_congr_right fun _ => ?_)
  cases found with
  | some a => exact Option.some_inj
  | none => exact Iff.rfl

theorem Fueled.attempts (x : Prog σ (Option α)) : Fueled (attempts x) := by
  intro m
  induction m with
  | zero =>
      rintro n - s r h
      cases h
  | succ m ih =>
      intro n hle s r h
      obtain ⟨n, rfl⟩ := Nat.exists_eq_add_of_le' hle
      obtain ⟨found, t, hx, hrest⟩ := attempts_eq_some.mp h
      refine attempts_eq_some.mpr ⟨found, t, hx, ?_⟩
      cases found with
      | some a => exact hrest
      | none => exact ih (Nat.le_add_left m n) t r hrest

theorem Keeps.attempts {R : σ → σ → Prop} [Std.Refl R] [IsTrans σ R] (hx : Keeps R x) :
    ∀ left, Keeps R (attempts x left)
  | 0 => Keeps.failure
  | left + 1 => hx.bind fun found => by
      cases found with
      | some a => exact Keeps.pure a
      | none => exact Keeps.attempts hx left

theorem yields_done {a : α} {r : α × σ} (h : x s = some (some a, t)) :
    Yields (attempts x) s r ↔ (a, t) = r := by
  constructor
  · rintro ⟨_ | left, hrun⟩
    · cases hrun
    · exact Option.some.inj ((attempts_done h left).symm.trans hrun)
  · rintro rfl
    exact ⟨1, attempts_done h 0⟩

theorem yields_again {r : α × σ} (h : x s = some (none, t)) :
    Yields (attempts x) s r ↔ Yields (attempts x) t r := by
  constructor
  · rintro ⟨_ | left, hrun⟩
    · cases hrun
    · exact ⟨left, (attempts_again h left).symm.trans hrun⟩
  · rintro ⟨left, hrun⟩
    exact ⟨left + 1, (attempts_again h left).trans hrun⟩

end Attempts

/-! ## Halting -/

theorem halts_iff_yields {x : Nat → Prog σ α} {s : σ} : Halts x s ↔ ∃ a t, Yields x s (a, t) :=
  exists_comm.trans Prod.exists

theorem halts_const {x : Prog σ α} {s : σ} : Halts (fun _ => x) s ↔ ∃ r, x s = some r :=
  ⟨fun ⟨_, r, h⟩ => ⟨r, h⟩, fun ⟨r, h⟩ => ⟨0, r, h⟩⟩

theorem halts_discard {x : Nat → Prog σ α} {s : σ} :
    Halts (fun n => (discard (x n) : Prog σ PUnit)) s ↔ Halts x s := by
  simp only [halts_iff_yields, yields_discard]
  exact ⟨fun ⟨_, t, a, h⟩ => ⟨a, t, h⟩, fun ⟨a, t, h⟩ => ⟨(), t, a, h⟩⟩

theorem halts_bind {x : Nat → Prog σ α} {k : Nat → α → Prog σ β} {s : σ} (hx : Fueled x)
    (hk : ∀ a, Fueled (k · a)) : Halts (fun n => x n >>= k n) s
      ↔ ∃ a t, Yields x s (a, t) ∧ Halts (k · a) t := by
  simp only [halts_iff_yields, yields_bind hx hk]
  constructor
  · rintro ⟨b, u, a, t, hfirst, hrest⟩
    exact ⟨a, t, hfirst, b, u, hrest⟩
  · rintro ⟨a, t, hfirst, b, u, hrest⟩
    exact ⟨b, u, a, t, hfirst, hrest⟩

/-- With less fuel fewer states are reached. -/
theorem alongAll_fuel {step : Nat → ε → Prog σ Unit} (hstep : ∀ e, Fueled (step · e))
    {P : ε → σ → Prop} {m n : Nat} (hle : m ≤ n) {es : List ε} {s : σ}
    (h : AlongAll (step n) P es s) : AlongAll (step m) P es s := by
  induction es generalizing s with
  | nil => trivial
  | cons e es ih => exact ⟨h.1, fun t ht => ih (h.2 t (hstep e hle s _ ht))⟩

/-- Two conditions that agree where an invariant holds agree along a run. -/
theorem alongAll_congr {step : ε → Prog σ Unit} {P Q : ε → σ → Prop} {Inv : σ → Prop}
    (hPQ : ∀ e s, Inv s → (P e s ↔ Q e s))
    (hstep : ∀ e s s', Inv s → step e s = some ((), s') → Inv s') {es : List ε} {s : σ}
    (hs : Inv s) : AlongAll step P es s ↔ AlongAll step Q es s := by
  induction es generalizing s with
  | nil => exact Iff.rfl
  | cons e es ih =>
      refine and_congr (hPQ e s hs) (forall_congr' fun t => ?_)
      exact imp_congr_right fun ht => ih (hstep e s t hs ht)

/-- A sequence of events halts if each event does in the state it finds,
and only then. -/
theorem halts_runAll_iff {step : Nat → ε → Prog σ Unit} (hstep : ∀ e, Fueled (step · e))
    (es : List ε) (s : σ) : Halts (fun n => runAll (step n) es) s
      ↔ ∀ fuel, AlongAll (step fuel) (fun e t => Halts (step · e) t) es s := by
  induction es generalizing s with
  | nil => exact ⟨fun _ _ => trivial, fun _ => ⟨0, ((), s), rfl⟩⟩
  | cons e es ih =>
      refine (halts_bind (hstep e) fun _ => Fueled.runAll hstep es).trans ?_
      constructor
      · rintro ⟨_, t, ⟨m, ht⟩, hrest⟩ fuel
        refine ⟨⟨m, _, ht⟩, fun t' ht' => ?_⟩
        cases (hstep e).unique ht ht'
        exact (ih t).mp hrest fuel
      · intro h
        obtain ⟨m, ⟨_, t⟩, ht⟩ := (h 0).1
        refine ⟨(), t, ⟨m, ht⟩, (ih t).mpr fun fuel => ?_⟩
        -- the event has to be made with enough fuel for what follows to count
        have hmore := (h (max m fuel)).2 t (hstep e (Nat.le_max_left m fuel) s _ ht)
        exact alongAll_fuel hstep (Nat.le_max_right m fuel) hmore

end Prog
