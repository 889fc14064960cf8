import Mathlib.Logic.Function.Basic

/-!
# Slices of an array

An array of unknown length is a function on positions. `splice f g a n`
is `f` with the `n` cells from `a` on replaced by the first `n` of `g`.

`records` reads an array as a map of records of one size, each kept at its
own position. Where no two of them overlap, replacing the cells of one is
an update of the map (`records_splice`).
-/

namespace Splice

variable {α : Type*}

def splice (f g : Nat → α) (a n : Nat) : Nat → α := fun i =>
  if a ≤ i ∧ i < a + n then g (i - a) else f i

theorem splice_in {f g : Nat → α} {a n i : Nat} (h : a ≤ i) (h' : i < a + n) :
    splice f g a n i = g (i - a) :=
  if_pos ⟨h, h'⟩

theorem splice_out {f g : Nat → α} {a n i : Nat} (h : i < a ∨ a + n ≤ i) :
    splice f g a n i = f i :=
  if_neg fun hi => by omega

theorem splice_add {f g : Nat → α} {a n k : Nat} (h : k < n) : splice f g a n (a + k) = g k := by
  rw [splice_in (Nat.le_add_right a k) (Nat.add_lt_add_left h a), Nat.add_sub_cancel_left]

theorem splice_congr {f f' g : Nat → α} {a n i : Nat} (h : f i = f' i) :
    splice f g a n i = splice f' g a n i := by
  rw [splice, splice, h]

theorem splice_zero (f g : Nat → α) (a : Nat) : splice f g a 0 = f :=
  funext fun _ => splice_out (by omega)

theorem splice_succ (f g : Nat → α) (a n : Nat) :
    splice f g a (n + 1) = Function.update (splice f g a n) (a + n) (g n) := by
  funext i
  by_cases hi : i = a + n
  · subst hi
    rw [Function.update_self, splice_add (Nat.lt_succ_self n)]
  · rw [Function.update_of_ne hi]
    by_cases h : a ≤ i ∧ i < a + n
    · rw [splice_in h.1 h.2, splice_in h.1 (by omega)]
    · rw [splice_out (by omega), splice_out (by omega)]

/-- A slice whose first cell is written by itself. -/
theorem splice_cons (f g : Nat → α) (a n : Nat) :
    splice f g a (n + 1)
      = splice (Function.update f a (g 0)) (fun i => g (i + 1)) (a + 1) n := by
  funext i
  by_cases hi : i = a
  · subst hi
    rw [splice_in (Nat.le_refl i) (by omega), splice_out (by omega), Function.update_self,
      Nat.sub_self]
  · by_cases h : a ≤ i ∧ i < a + (n + 1)
    · rw [splice_in h.1 h.2, splice_in (by omega) (by omega)]
      exact congrArg g (by omega)
    · rw [splice_out (by omega), splice_out (by omega), Function.update_of_ne hi]

theorem splice_twice (f g : Nat → α) (a n : Nat) :
    splice (splice f g a n) g a n = splice f g a n := by
  funext i
  by_cases hi : a ≤ i ∧ i < a + n
  · rw [splice_in hi.1 hi.2, splice_in hi.1 hi.2]
  · rw [splice_out (by omega)]

/-- Writing back a block read from `b`, changed only in a slice of it,
changes only that slice. -/
theorem splice_block (f g : Nat → α) {b m a n : Nat} (h : a + n ≤ m) {u : Nat → α}
    (hu : ∀ k < m, u k = f (b + k)) :
    splice f (splice u g a n) b m = splice f g (b + a) n := by
  funext i
  by_cases hb : b ≤ i ∧ i < b + m
  · rw [splice_in hb.1 hb.2]
    by_cases ha : b + a ≤ i ∧ i < b + a + n
    · rw [splice_in (by omega) (by omega), splice_in ha.1 ha.2, Nat.sub_sub]
    · rw [splice_out (by omega), splice_out (by omega), hu _ (by omega),
        Nat.add_sub_cancel' hb.1]
  · rw [splice_out (by omega), splice_out (by omega)]

/-! ## Records -/

section Records

variable {κ : Type*} {pos : κ → Nat} {n : Nat}

def records (pos : κ → Nat) (n : Nat) (f : Nat → α) : κ → Fin n → α := fun k i => f (pos k + i)

/-- No two records overlap. -/
def Apart (pos : κ → Nat) (n : Nat) : Prop :=
  ∀ k k', k ≠ k' → pos k + n ≤ pos k' ∨ pos k' + n ≤ pos k

theorem records_congr {f g : Nat → α} (h : ∀ k, ∀ i < n, f (pos k + i) = g (pos k + i)) :
    records pos n f = records pos n g :=
  funext fun k => funext fun i => h k i i.isLt

theorem records_splice [DecidableEq κ] (h : Apart pos n) (f g : Nat → α) (k : κ) :
    records pos n (splice f g (pos k) n)
      = Function.update (records pos n f) k fun i => g i := by
  funext k' i
  have hi := i.isLt
  by_cases hk : k' = k
  · subst hk
    rw [Function.update_self]
    exact splice_add hi
  · rw [Function.update_of_ne hk]
    rcases h k' k hk with hlt | hlt
    · exact splice_out (.inl (by omega))
    · exact splice_out (.inr (by omega))

end Records

end Splice
