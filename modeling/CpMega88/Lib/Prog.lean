import Mathlib.Order.Defs.Unbundled

/-!
# Programs that may not return

`Prog σ α` is a computation on a state `σ` that may return nothing: a
loop that does not end, or a trap. Four kinds of facts are proved about
one.

- Its run from a given state, `x s = some (a, s')`, composed by
  `bind_of_run`.
- A relation between the states before and after, for every run that
  returns (`Keeps`). A relation that is reflexive and transitive, such as
  equality of some component, is kept by a sequence whose parts keep it.
- The same, together with the fact that every run returns (`Returns`).
- A counted loop whose turns are known (`upTo_eq`).
-/

/-- A computation on a state that may not return. -/
abbrev Prog (σ α : Type) := StateT σ Option α

namespace Prog

variable {σ α β : Type}

theorem bind_run (x : Prog σ α) (k : α → Prog σ β) (s : σ) :
    (x >>= k) s = (x s).bind fun r => k r.1 r.2 := rfl

theorem bind_of_run {x : Prog σ α} {s s' : σ} {a : α} (h : x s = some (a, s'))
    (k : α → Prog σ β) : (x >>= k) s = k a s' := by
  rw [bind_run, h, Option.bind_some]

theorem bind_eq_some {x : Prog σ α} {k : α → Prog σ β} {s : σ} {r : β × σ} :
    (x >>= k) s = some r ↔ ∃ a s', x s = some (a, s') ∧ k a s' = some r := by
  rw [bind_run, Option.bind_eq_some_iff]
  simp only [Prod.exists]

theorem pure_run (a : α) (s : σ) : (pure a : Prog σ α) s = some (a, s) := rfl

theorem failure_run (s : σ) : (failure : Prog σ α) s = none := rfl

theorem get_bind_run (k : σ → Prog σ α) (s : σ) : (get >>= k) s = k s s := rfl

theorem modify_bind_run (g : σ → σ) (k : PUnit → Prog σ α) (s : σ) :
    (modify g >>= k) s = k () (g s) := rfl

theorem ite_run {c : Prop} [Decidable c] (x y : Prog σ α) (s : σ) :
    (if c then x else y : Prog σ α) s = if c then x s else y s := by
  split <;> rfl

theorem ite_eq_some {c : Prop} [Decidable c] {x y : Prog σ α} {s : σ} {r : α × σ} :
    (if c then x else y : Prog σ α) s = some r ↔ c ∧ x s = some r ∨ ¬c ∧ y s = some r := by
  split <;> simp [*]

theorem modify_run (g : σ → σ) (s : σ) : (modify g : Prog σ PUnit) s = some ((), g s) := rfl

theorem discard_eq_some {x : Prog σ α} {s s' : σ} {u : PUnit} :
    (discard x : Prog σ PUnit) s = some (u, s') ↔ ∃ a, x s = some (a, s') := by
  have hrun : (discard x : Prog σ PUnit) s = (x s).map fun r => ((), r.2) := by
    cases h : x s <;> simp [discard, Functor.mapConst, StateT.map, h]
  rw [hrun, Option.map_eq_some_iff]
  constructor
  · rintro ⟨⟨a, t⟩, hx, ht⟩
    cases ht
    exact ⟨a, hx⟩
  · rintro ⟨a, hx⟩
    exact ⟨(a, s'), hx, rfl⟩

theorem discard_state (x : Prog σ α) (s : σ) :
    ((discard x : Prog σ PUnit) s).map Prod.snd = (x s).map Prod.snd := by
  show Option.map Prod.snd ((x s).bind _) = _
  cases x s <;> rfl

/-- A computation that always returns. -/
def lift (x : StateM σ α) : Prog σ α := fun s => some (x s)

/-- `if (c) x;` -/
def onlyIf (c : Prop) [Decidable c] (x : Prog σ Unit) : Prog σ Unit := if c then x else pure ()

theorem onlyIf_run {c : Prop} [Decidable c] {x : Prog σ Unit} {s t : σ} (hc : c)
    (h : x s = some ((), t)) : onlyIf c x s = some ((), t) := by
  rw [onlyIf, if_pos hc, h]

theorem onlyIf_skip {c : Prop} [Decidable c] (hc : ¬c) (x : Prog σ Unit) (s : σ) :
    onlyIf c x s = some ((), s) := by
  rw [onlyIf, if_neg hc, pure_run]

theorem lift_unit_run (x : StateM σ Unit) (s : σ) : lift x s = some ((), (x s).2) := rfl

/-! ## Relations kept -/

/-- Whenever `x` returns, the states before and after are related. -/
def Keeps (R : σ → σ → Prop) (x : Prog σ α) : Prop :=
  ∀ s a s', x s = some (a, s') → R s s'

namespace Keeps

variable {R : σ → σ → Prop}

theorem mono {R' : σ → σ → Prop} (hR : ∀ s s', R s s' → R' s s') {x : Prog σ α}
    (h : Keeps R x) : Keeps R' x := by
  intro s a s' hrun
  exact hR s s' (h s a s' hrun)

theorem pure [Std.Refl R] (a : α) : Keeps R (pure a : Prog σ α) := by
  rintro s a s' h
  cases h
  exact Std.Refl.refl s

theorem get [Std.Refl R] : Keeps R (get : Prog σ σ) := by
  rintro s a s' h
  cases h
  exact Std.Refl.refl s

theorem modify {g : σ → σ} (hg : ∀ s, R s (g s)) : Keeps R (modify g : Prog σ PUnit) := by
  rintro s a s' h
  cases h
  exact hg s

theorem failure : Keeps R (failure : Prog σ α) := by
  rintro s a s' h
  cases h

theorem bind [IsTrans σ R] {x : Prog σ α} {k : α → Prog σ β} (hx : Keeps R x)
    (hk : ∀ a, Keeps R (k a)) : Keeps R (x >>= k) := by
  rintro s b s' h
  obtain ⟨a, t, hxt, hkt⟩ := bind_eq_some.mp h
  exact IsTrans.trans _ _ _ (hx s a t hxt) (hk a t b s' hkt)

theorem discard {x : Prog σ α} (hx : Keeps R x) : Keeps R (discard x : Prog σ PUnit) := by
  intro s u s' h
  obtain ⟨a, ha⟩ := discard_eq_some.mp h
  exact hx s a s' ha

theorem ite {c : Prop} [Decidable c] {x y : Prog σ α} (hx : Keeps R x) (hy : Keeps R y) :
    Keeps R (if c then x else y) := by
  split
  · exact hx
  · exact hy

theorem cases {c : Prop} [Decidable c] {x y : Prog σ α} (hx : c → Keeps R x)
    (hy : ¬c → Keeps R y) : Keeps R (if c then x else y) := by
  split
  · exact hx ‹_›
  · exact hy ‹_›

end Keeps

/-! ## Counted loops -/

/-- `for (i = 0; i < n; i++)`. -/
def upTo : Nat → (Nat → Prog σ Unit) → Prog σ Unit
  | 0, _ => pure ()
  | n + 1, body => do
    upTo n body
    body n

/-- A counted loop whose turns are known. -/
theorem upTo_eq {body : Nat → Prog σ Unit} {f : Nat → σ} {n : Nat}
    (hbody : ∀ i < n, body i (f i) = some ((), f (i + 1))) :
    upTo n body (f 0) = some ((), f n) := by
  induction n with
  | zero => rfl
  | succ n ih =>
      have hrun := ih fun i hi => hbody i (Nat.lt_succ_of_lt hi)
      exact (bind_of_run hrun _).trans (hbody n (Nat.lt_succ_self n))

theorem Keeps.upTo {R : σ → σ → Prop} [Std.Refl R] [IsTrans σ R] {body : Nat → Prog σ Unit}
    (hbody : ∀ i, Keeps R (body i)) : ∀ n, Keeps R (upTo n body)
  | 0 => Keeps.pure ()
  | n + 1 => (Keeps.upTo hbody n).bind fun _ => hbody n

/-! ## Computations that return -/

/-- `x` returns from every state, and the states before and after are
related. -/
def Returns (R : σ → σ → Prop) (x : Prog σ α) : Prop :=
  ∀ s, ∃ a s', x s = some (a, s') ∧ R s s'

namespace Returns

variable {R : σ → σ → Prop}

theorem keeps {x : Prog σ α} (h : Returns R x) : Keeps R x := by
  intro s a s' hrun
  obtain ⟨b, t, ht, hR⟩ := h s
  cases hrun.symm.trans ht
  exact hR

theorem pure [Std.Refl R] (a : α) : Returns R (pure a : Prog σ α) :=
  fun s => ⟨a, s, rfl, Std.Refl.refl s⟩

theorem modify {g : σ → σ} (hg : ∀ s, R s (g s)) : Returns R (modify g : Prog σ PUnit) :=
  fun s => ⟨(), g s, rfl, hg s⟩

theorem bind [IsTrans σ R] {x : Prog σ α} {k : α → Prog σ β} (hx : Returns R x)
    (hk : ∀ a, Returns R (k a)) : Returns R (x >>= k) := by
  intro s
  obtain ⟨a, t, ht, hR⟩ := hx s
  obtain ⟨b, s', hs', hR'⟩ := hk a t
  exact ⟨b, s', (bind_of_run ht k).trans hs', IsTrans.trans _ _ _ hR hR'⟩

theorem ite {c : Prop} [Decidable c] {x y : Prog σ α} (hx : Returns R x) (hy : Returns R y) :
    Returns R (if c then x else y) := by
  split
  · exact hx
  · exact hy

theorem onlyIf [Std.Refl R] {c : Prop} [Decidable c] {x : Prog σ Unit} (h : Returns R x) :
    Returns R (onlyIf c x) :=
  .ite h (.pure ())

/-- From where `x` has come to, `k` goes on. -/
theorem andThen {x : Prog σ α} {k : α → Prog σ β} {s : σ} {Q : β → σ → Prop} (hx : Returns R x)
    (hk : ∀ a t, R s t → ∃ b s', k a t = some (b, s') ∧ Q b s') :
    ∃ b s', (x >>= k) s = some (b, s') ∧ Q b s' := by
  obtain ⟨a, t, ht, hR⟩ := hx s
  obtain ⟨b, s', hs', hQ⟩ := hk a t hR
  exact ⟨b, s', (bind_of_run ht k).trans hs', hQ⟩

end Returns

/-! ## Sequences of events -/

section Events

variable {ε : Type}

/-- One event after the other. -/
def runAll (step : ε → Prog σ Unit) : List ε → Prog σ Unit
  | [] => pure ()
  | e :: es => do
    step e
    runAll step es

theorem runAll_append {step : ε → Prog σ Unit} {es es' : List ε} {s t : σ}
    (h : runAll step es s = some ((), t)) : runAll step (es ++ es') s = runAll step es' t := by
  induction es generalizing s with
  | nil =>
      cases h
      rfl
  | cons e es ih =>
      obtain ⟨_, u, he, hrest⟩ := bind_eq_some.mp h
      exact (bind_of_run he _).trans (ih hrest)

/-- `P` holds of every event of a sequence in the state it finds. -/
def AlongAll (step : ε → Prog σ Unit) (P : ε → σ → Prop) : List ε → σ → Prop
  | [], _ => True
  | e :: es, s => P e s ∧ ∀ s', step e s = some ((), s') → AlongAll step P es s'

theorem alongAll_cons {step : ε → Prog σ Unit} {P : ε → σ → Prop} {e : ε} {es : List ε} {s t : σ}
    (hP : P e s) (h : step e s = some ((), t)) (hrest : AlongAll step P es t) :
    AlongAll step P (e :: es) s := by
  refine ⟨hP, fun s' hs' => ?_⟩
  cases h.symm.trans hs'
  exact hrest

/-- What every event (in a state satisfying `P`) preserves, a sequence of
such events preserves. -/
theorem runAll_invariant {step : ε → Prog σ Unit} {P : ε → σ → Prop} {Inv : σ → Prop}
    (hstep : ∀ e s s', Inv s → P e s → step e s = some ((), s') → Inv s') :
    ∀ {es : List ε} {s s' : σ}, Inv s → AlongAll step P es s → runAll step es s = some ((), s') →
      Inv s'
  | [], _, _, hs, _, hrun => by
      cases hrun
      exact hs
  | e :: es, s, s', hs, ⟨hP, hrest⟩, hrun => by
      obtain ⟨_, t, ht, hrun'⟩ := bind_eq_some.mp hrun
      exact runAll_invariant hstep (hstep e s t hs hP ht) (hrest t ht) hrun'

end Events

end Prog
