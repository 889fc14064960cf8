import Mathlib.Data.Nat.Digits.Defs
import Mathlib.Tactic.Ring

/-!
# Adding digit by digit

A cell adder takes the digits of one position, with the carry in its
state, and leaves a digit and the next carry. `ripple` runs it over the
positions from the lowest up, `write` is how the digits of a number are
written, `carryInto` the true carry into a position.

A cell need not be right. `ripple_iff` says what a chain of cells that
are right on some positions (`Good`, of the digits and the carry into
them) and visibly wrong on the others computes: the sum, with its carry
out, if and only if every position is good under its true carry.
-/

namespace Digits

variable {δ σ ω : Type*}

/-- Run `cell` over the positions, lowest first. -/
def ripple (cell : δ → σ → ω × σ) : List δ → σ → List ω × σ
  | [], s => ([], s)
  | d :: ds, s => ((cell d s).1 :: (ripple cell ds (cell d s).2).1, (ripple cell ds (cell d s).2).2)

/-- The `n` lowest digits of `N` in base `B`, lowest first. -/
def write (enc : Nat → ω) (B : Nat) : Nat → Nat → List ω
  | 0, _ => []
  | n + 1, N => enc (N % B) :: write enc B n (N / B)

/-- The sum of the digits of all positions, each in its place. -/
def total (B : Nat) (val : δ → Nat) (ds : List δ) : Nat := Nat.ofDigits B (ds.map val)

/-- The carry into position `i`, after a carry `c` into position 0. -/
def carryInto (B : Nat) (val : δ → Nat) (c : Nat) (ds : List δ) (i : Nat) : Nat :=
  (c + total B val (ds.take i)) / B ^ i

theorem total_cons (B : Nat) (val : δ → Nat) (d : δ) (ds : List δ) :
    total B val (d :: ds) = val d + B * total B val ds := by
  simp [total, Nat.ofDigits_cons]

theorem write_mod (enc : Nat → ω) (B n N : Nat) : write enc B n (N % B ^ n) = write enc B n N := by
  induction n generalizing N with
  | zero => rfl
  | succ n ih =>
      have hmod : N % B ^ (n + 1) % B = N % B :=
        Nat.mod_mod_of_dvd N (Dvd.intro_left (B ^ n) rfl)
      have hdiv : N % B ^ (n + 1) / B = N / B % B ^ n := by
        rw [pow_succ', Nat.mod_mul_right_div_self]
      rw [write, write, hmod, hdiv, ih]

/-- A carry into position 0 and its digits make the carry into position
1. -/
theorem carry_split {B : Nat} (hB : 0 < B) (c v t : Nat) :
    (c + (v + B * t)) % B = (v + c) % B ∧ (c + (v + B * t)) / B = (v + c) / B + t := by
  have h : c + (v + B * t) = v + c + B * t := by ring
  rw [h, Nat.add_mul_mod_self_left, Nat.add_mul_div_left _ _ hB]
  exact ⟨rfl, rfl⟩

theorem carryInto_zero (B : Nat) (val : δ → Nat) (c : Nat) (ds : List δ) :
    carryInto B val c ds 0 = c := by
  simp [carryInto, total]

theorem carryInto_succ {B : Nat} (hB : 0 < B) (val : δ → Nat) (c : Nat) (d : δ) (ds : List δ)
    (i : Nat) :
    carryInto B val c (d :: ds) (i + 1) = carryInto B val ((val d + c) / B) ds i := by
  rw [carryInto, List.take_succ_cons, total_cons, pow_succ', ← Nat.div_div_eq_div_mul,
    (carry_split hB c _ _).2, carryInto]

/-- A carry is a bit: two digits and a carry stay below twice the base. -/
theorem toNat_carry {B v c : Nat} (h : v + c < 2 * B) :
    (decide (B ≤ v + c)).toNat = (v + c) / B := by
  by_cases hle : B ≤ v + c
  · rw [decide_eq_true hle, Bool.toNat_true]
    exact (Nat.div_eq_of_lt_le (by omega) (by omega)).symm
  · rw [decide_eq_false hle, Bool.toNat_false]
    exact (Nat.div_eq_of_lt (by omega)).symm

/-- What a cell does with the digits `d` in a state `s`: it is right,
with its carry, on good digits and wrong on others. `Inv` is what the
cells need of the state, and keep. -/
structure CellOk (B : Nat) (val : δ → Nat) (enc : Nat → ω) (cy : σ → Bool) (cell : δ → σ → ω × σ)
    (Good : δ → Nat → Prop) (Inv : σ → Prop) (d : δ) (s : σ) : Prop where
  small : val d + 1 < 2 * B
  right : (cell d s).1 = enc ((val d + (cy s).toNat) % B) ↔ Good d (cy s).toNat
  carry : Good d (cy s).toNat → cy (cell d s).2 = decide (B ≤ val d + (cy s).toNat)
  inv : Inv (cell d s).2

/-- What a chain of cells computes, by what one cell computes. -/
theorem ripple_iff {B : Nat} (hB : 0 < B) {val : δ → Nat} {enc : Nat → ω} {cy : σ → Bool}
    {cell : δ → σ → ω × σ} {Good : δ → Nat → Prop} {Inv : σ → Prop} {ds : List δ}
    (hcell : ∀ d ∈ ds, ∀ s, Inv s → CellOk B val enc cy cell Good Inv d s) (s : σ) (hs : Inv s) :
    ((ripple cell ds s).1
          = write enc B ds.length (((cy s).toNat + total B val ds) % B ^ ds.length)
        ∧ (cy (ripple cell ds s).2 = true ↔ B ^ ds.length ≤ (cy s).toNat + total B val ds))
      ↔ ∀ i (h : i < ds.length), Good ds[i] (carryInto B val (cy s).toNat ds i) := by
  rw [write_mod]
  induction ds generalizing s with
  | nil =>
      simp [ripple, write, total]
      cases cy s <;> simp
  | cons d ds ih =>
      have hok := hcell d List.mem_cons_self s hs
      obtain ⟨hmod, hdiv⟩ := carry_split hB (cy s).toNat (val d) (total B val ds)
      have hall : (∀ i (h : i < (d :: ds).length),
            Good (d :: ds)[i] (carryInto B val (cy s).toNat (d :: ds) i))
          ↔ Good d (cy s).toNat ∧ ∀ i (h : i < ds.length),
            Good ds[i] (carryInto B val ((val d + (cy s).toNat) / B) ds i) := by
        constructor
        · intro h
          refine ⟨?_, fun i hi => ?_⟩
          · have h0 := h 0 (Nat.succ_pos _)
            rwa [carryInto_zero] at h0
          · have hi' := h (i + 1) (Nat.succ_lt_succ hi)
            rwa [carryInto_succ hB] at hi'
        · rintro ⟨h0, h⟩ i hi
          cases i with
          | zero => rw [carryInto_zero]; exact h0
          | succ i => rw [carryInto_succ hB]; exact h i (Nat.lt_of_succ_lt_succ hi)
      rw [hall, ripple, List.length_cons, write, total_cons, hmod, hdiv, List.cons.injEq]
      by_cases hg : Good d (cy s).toNat
      · have hout := hok.right.mpr hg
        have hlt : val d + (cy s).toNat < 2 * B := by
          have := hok.small
          have := Bool.toNat_le (cy s)
          omega
        have hpow : B ^ (ds.length + 1) ≤ (cy s).toNat + (val d + B * total B val ds)
            ↔ B ^ ds.length ≤ (val d + (cy s).toNat) / B + total B val ds := by
          rw [← hdiv, Nat.le_div_iff_mul_le hB, pow_succ]
        have hrest := ih (fun d hd => hcell d (List.mem_cons_of_mem _ hd)) (cell d s).2 hok.inv
        rw [hok.carry hg, toNat_carry hlt] at hrest
        rw [hpow, and_iff_right hout, hrest, and_iff_right hg]
      · constructor
        · rintro ⟨⟨hout, -⟩, -⟩
          exact absurd (hok.right.mp hout) hg
        · rintro ⟨hg', -⟩
          exact absurd hg' hg

end Digits
