import Mathlib.Data.BitVec

/-!
# Frames on a serial line

A line as its level in every cycle, and an eight-bit frame on it: a low
start bit, the data from the least significant bit on, and the line high
afterwards, each bit as long as the next.

A receiver samples the line once for each bit and shifts what it finds
into a byte from above (`shiftIn`). After eight samples or more the byte
holds the last eight (`Holds.eq_of_frame`), and the samples of a receiver
whose bits are not quite as long as the sender's still fall into one bit
after the other as long as the drift stays inside (`Carries.sample`).
-/

namespace SerialLine

/-- The bits of a frame: the start bit, the data, and high. -/
def frameBit (d : BitVec 8) : Nat → Bool
  | 0 => false
  | j + 1 => if j < 8 then d.getLsbD j else true

/-- From cycle `e` on the line carries a frame, with bits of `p` cycles. -/
def Carries (line : Nat → Bool) (e p : Nat) (d : BitVec 8) : Prop :=
  ∀ u, e ≤ u → u < e + 10 * p → line u = frameBit d ((u - e) / p)

/-- The line once these `n` bits have gone out on it from cycle `e` on; the
last one stays. -/
def sent (p : Nat) : Nat → (Nat → Bool) → Nat → (Nat → Bool) → Nat → Bool
  | 0, _, _, line => line
  | n + 1, g, e, line => sent p n (fun k => g (k + 1)) (e + p) fun u => if e ≤ u then g 0 else line u

/-- A bit comes in from above. -/
def shiftIn (x : BitVec 8) (b : Bool) : BitVec 8 := (if b then 0x80#8 else 0#8) ||| x >>> 1

/-- The byte holds the last of these `n` samples. -/
def Holds (b : Nat → Bool) (n : Nat) (x : BitVec 8) : Prop :=
  ∀ i < n, n ≤ 8 + i → x.getLsbD (8 + i - n) = b i

variable {line : Nat → Bool} {e p : Nat} {d x : BitVec 8} {b : Nat → Bool} {n : Nat}

theorem frameBit_data {j : Nat} (h : j < 8) : frameBit d (j + 1) = d.getLsbD j := if_pos h

theorem shiftIn_getLsbD (x : BitVec 8) (v : Bool) (i : Nat) :
    (shiftIn x v).getLsbD i = if i = 7 then v else x.getLsbD (i + 1) := by
  have hshift : (x >>> 1).getLsbD i = x.getLsbD (i + 1) := by
    rw [BitVec.getLsbD_ushiftRight, Nat.add_comm]
  have htop : (if v then 0x80#8 else 0#8).getLsbD i = (v && decide (i = 7)) := by
    cases v with
    | false => simp
    | true =>
        rw [if_pos rfl, show 0x80#8 = BitVec.twoPow 8 7 from rfl, BitVec.getLsbD_twoPow]
        simp [eq_comm]
  rw [shiftIn, BitVec.getLsbD_or, htop, hshift]
  by_cases hi : i = 7
  · rw [if_pos hi, hi, x.getLsbD_of_ge 8 (Nat.le_refl 8)]
    simp
  · simp [hi]

theorem Holds.zero (b : Nat → Bool) (x : BitVec 8) : Holds b 0 x :=
  fun i hi => absurd hi (Nat.not_lt_zero i)

theorem Holds.step (h : Holds b n x) : Holds b (n + 1) (shiftIn x (b n)) := by
  intro i hi hlast
  rw [shiftIn_getLsbD]
  by_cases hin : i = n
  · rw [if_pos (by omega), hin]
  · rw [if_neg (by omega), show 8 + i - (n + 1) + 1 = 8 + i - n by omega]
    exact h i (by omega) (by omega)

/-- Samples of which the last eight are the data. -/
theorem Holds.eq_of_frame (h : Holds b n x) (hn : 8 ≤ n)
    (hb : ∀ j < 8, b (n - 8 + j) = d.getLsbD j) : x = d := by
  refine BitVec.eq_of_getLsbD_eq fun j hj => ?_
  have hbit := h (n - 8 + j) (by omega) (by omega)
  rw [show 8 + (n - 8 + j) - n = j by omega, hb j hj] at hbit
  exact hbit

theorem sent_succ (p n : Nat) (g : Nat → Bool) (e : Nat) (line : Nat → Bool) :
    sent p (n + 1) g e line
      = sent p n (fun k => g (k + 1)) (e + p) fun u => if e ≤ u then g 0 else line u :=
  rfl

theorem sent_before (p : Nat) : ∀ (n : Nat) (g : Nat → Bool) (e : Nat) (line : Nat → Bool) {u : Nat},
    u < e → sent p n g e line u = line u
  | 0, _, _, _, _, _ => rfl
  | n + 1, g, e, line, u, h => by
      rw [sent, sent_before p n _ _ _ (by omega), if_neg (by omega)]

theorem sent_during {p : Nat} : ∀ {n : Nat} {g : Nat → Bool} {e : Nat} {line : Nat → Bool} {k u : Nat},
    k < n → e + k * p ≤ u → u < e + (k + 1) * p → sent p n g e line u = g k
  | n + 1, g, e, line, 0, u, _, hlo, hhi => by
      rw [sent, sent_before p n _ _ _ (by omega), if_pos (by omega)]
  | n + 1, g, e, line, k + 1, u, hk, hlo, hhi => by
      have hp : (k + 1) * p = k * p + p := Nat.succ_mul k p
      have hp' : (k + 1 + 1) * p = (k + 1) * p + p := Nat.succ_mul (k + 1) p
      rw [sent, sent_during (k := k) (by omega) (by omega) (by omega)]

/-- A sample that falls into bit `j`. -/
theorem Carries.sample (h : Carries line e p d) {u j : Nat} (hj : j < 10) (hlo : e + j * p ≤ u)
    (hhi : u < e + (j + 1) * p) : line u = frameBit d j := by
  have hp : 0 < p := by
    rcases Nat.eq_zero_or_pos p with rfl | hp
    · omega
    · exact hp
  have hend : (j + 1) * p ≤ 10 * p := Nat.mul_le_mul_right p hj
  have hcut : (u - e) / p = j := by
    rw [Nat.div_eq_iff hp]
    have hsucc : (j + 1) * p = j * p + p := Nat.succ_mul j p
    have hcomm : p * j = j * p := Nat.mul_comm p j
    omega
  rw [h u (by omega) (by omega), hcut]

end SerialLine
