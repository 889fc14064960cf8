import Mathlib.Data.BitVec
import Mathlib.Logic.Function.Basic

/-!
# Bytes, words and 64K memories

Eight-bit bytes, sixteen-bit words made of two of them, and memories
indexed by words. Everything an eight-bit machine model needs about
splitting a word (`hiByte`/`loByte`/`word`), about the masks that cut a
byte into nibbles, and about the carry that a byte-wise addition hands
from the low half of a word to the high half (`word_add_carry`,
`word_sub_borrow`).
-/

namespace Bytes

abbrev Byte := BitVec 8
abbrev Word := BitVec 16

/-- `unsigned long` of a 64-bit host. -/
abbrev ULong := BitVec 64

/-- A memory of 64K bytes. -/
abbrev Mem := Word → Byte

/-! ## Words and their halves -/

/-- `(hi << 8) | lo`. -/
def word (hi lo : Byte) : Word := hi ++ lo

/-- `w >> 8`. -/
def hiByte (w : Word) : Byte := w.extractLsb' 8 8

/-- `w & 0xff`. -/
def loByte (w : Word) : Byte := w.setWidth 8

theorem toNat_word (hi lo : Byte) :
    (word hi lo).toNat = 256 * hi.toNat + lo.toNat := by
  have h := lo.isLt
  rw [word, BitVec.toNat_append, Nat.shiftLeft_eq, Nat.mul_comm,
    ← Nat.two_pow_add_eq_or_of_lt h]

/-- A number of 32 bits from its two words. -/
theorem toNat_words (hi lo : Word) :
    (hi.setWidth 64 <<< 16 ||| lo.setWidth 64 : ULong).toNat = 65536 * hi.toNat + lo.toNat := by
  have hhi := hi.isLt
  have hlo := lo.isLt
  rw [BitVec.toNat_or, BitVec.toNat_shiftLeft, BitVec.toNat_setWidth_of_le (by decide),
    BitVec.toNat_setWidth_of_le (by decide), Nat.shiftLeft_eq,
    Nat.mod_eq_of_lt (by omega), Nat.mul_comm, Nat.two_pow_add_eq_or_of_lt hlo]

theorem toNat_hiByte (w : Word) : (hiByte w).toNat = w.toNat / 256 := by
  have h := w.isLt
  rw [hiByte, BitVec.extractLsb'_toNat, Nat.shiftRight_eq_div_pow]
  omega

theorem toNat_loByte (w : Word) : (loByte w).toNat = w.toNat % 256 :=
  BitVec.toNat_setWidth 8 w

@[simp] theorem hiByte_word (hi lo : Byte) : hiByte (word hi lo) = hi := by
  apply BitVec.eq_of_toNat_eq
  have h := lo.isLt
  rw [toNat_hiByte, toNat_word]
  omega

@[simp] theorem loByte_word (hi lo : Byte) : loByte (word hi lo) = lo := by
  apply BitVec.eq_of_toNat_eq
  have h := lo.isLt
  rw [toNat_loByte, toNat_word]
  omega

@[simp] theorem word_hiByte_loByte (w : Word) : word (hiByte w) (loByte w) = w := by
  apply BitVec.eq_of_toNat_eq
  rw [toNat_word, toNat_hiByte, toNat_loByte]
  omega

theorem add_one_ne (w : Word) : w + 1 ≠ w := by
  intro h
  have := congrArg BitVec.toNat h
  rw [BitVec.toNat_add, show (1 : Word).toNat = 1 from rfl] at this
  omega

/-! ## Byte-wise word arithmetic -/

/-- Adding to the low byte and handing the carry to the high byte adds
to the whole word. -/
theorem word_add_carry (h₁ l₁ h₂ l₂ : Byte) :
    word (h₁ + h₂ + BitVec.ofNat 8 ((l₁.toNat + l₂.toNat) / 256)) (l₁ + l₂)
      = word h₁ l₁ + word h₂ l₂ := by
  apply BitVec.eq_of_toNat_eq
  have := h₁.isLt
  have := l₁.isLt
  have := h₂.isLt
  have := l₂.isLt
  simp only [toNat_word, BitVec.toNat_add, BitVec.toNat_ofNat]
  omega

/-- The same for subtraction: the low byte's borrow comes off the high
byte. -/
theorem word_sub_borrow (h₁ l₁ h₂ l₂ : Byte) :
    word (h₁ - h₂ - BitVec.ofNat 8 (if l₁.toNat < l₂.toNat then 1 else 0)) (l₁ - l₂)
      = word h₁ l₁ - word h₂ l₂ := by
  apply BitVec.eq_of_toNat_eq
  have := h₁.isLt
  have := l₁.isLt
  have := h₂.isLt
  have := l₂.isLt
  simp only [toNat_word, BitVec.toNat_sub, BitVec.toNat_ofNat]
  split <;> omega

theorem toNat_add_ofNat {w : Nat} {x : BitVec w} {a i : Nat} (hx : x.toNat = a)
    (h : a + i < 2 ^ w) : (x + BitVec.ofNat w i).toNat = a + i := by
  rw [BitVec.toNat_add, BitVec.toNat_ofNat, Nat.add_mod_mod, hx, Nat.mod_eq_of_lt h]

theorem toNat_add_one {x : Word} {a : Nat} (hx : x.toNat = a) (h : a + 1 < 2 ^ 16) :
    (x + 1).toNat = a + 1 :=
  toNat_add_ofNat hx h

/-- Stepping the low byte, and the high byte when that wraps, steps the
word. -/
theorem word_add_one (h l : Byte) :
    word (if l + 1#8 == 0#8 then h + 1#8 else h) (l + 1#8) = word h l + 1#16 := by
  apply BitVec.eq_of_toNat_eq
  have := l.isLt
  have := h.isLt
  by_cases hl : l + 1#8 = 0#8
  · have hl' := congrArg BitVec.toNat hl
    simp only [hl, beq_self_eq_true, if_true, toNat_word, BitVec.toNat_add, BitVec.toNat_ofNat]
    simp only [BitVec.toNat_add, BitVec.toNat_ofNat] at hl'
    omega
  · have hl' : (l + 1#8).toNat ≠ 0 := fun h0 => hl (BitVec.eq_of_toNat_eq h0)
    simp only [beq_iff_eq, hl, if_false, toNat_word, BitVec.toNat_add, BitVec.toNat_ofNat]
    simp only [BitVec.toNat_add, BitVec.toNat_ofNat] at hl'
    omega

/-! ## Nibbles and parity -/

theorem toNat_and_0f (v : Byte) : (v &&& 0x0f#8).toNat = v.toNat % 16 := by
  rw [BitVec.toNat_and]
  exact Nat.and_two_pow_sub_one_eq_mod v.toNat 4

theorem toNat_shr4 (v : Byte) : (v >>> 4).toNat = v.toNat / 16 := by
  rw [BitVec.toNat_ushiftRight, Nat.shiftRight_eq_div_pow]

/-- An even number of one bits. -/
def evenParity (v : Byte) : Bool := v.cpop.toNat % 2 == 0

/-! ## Single bits -/

theorem and_bit (x : Byte) {m : Byte} {i : Nat} (hm : m = BitVec.twoPow 8 i) :
    x &&& m = if x.getLsbD i then m else 0#8 := by
  rw [hm, BitVec.and_twoPow]

/-- A mask of one bit tests that bit. -/
theorem and_bit_eq_zero (x : Byte) {m : Byte} {i : Nat} (hm : m = BitVec.twoPow 8 i)
    (hne : m ≠ 0#8) : x &&& m = 0#8 ↔ x.getLsbD i = false := by
  rw [and_bit x hm]
  cases x.getLsbD i with
  | false => exact ⟨fun _ => rfl, fun _ => rfl⟩
  | true => exact ⟨fun h => absurd h hne, fun h => Bool.noConfusion h⟩

theorem and_bit_ne_zero (x : Byte) {m : Byte} {i : Nat} (hm : m = BitVec.twoPow 8 i)
    (hne : m ≠ 0#8) : x &&& m ≠ 0#8 ↔ x.getLsbD i = true := by
  rw [Ne, and_bit_eq_zero x hm hne, Bool.not_eq_false]

/-- Bytes with the same eight bits are the same. -/
theorem eq_of_bits {x y : Byte}
    (h : x.getLsbD 0 = y.getLsbD 0 ∧ x.getLsbD 1 = y.getLsbD 1 ∧ x.getLsbD 2 = y.getLsbD 2
      ∧ x.getLsbD 3 = y.getLsbD 3 ∧ x.getLsbD 4 = y.getLsbD 4 ∧ x.getLsbD 5 = y.getLsbD 5
      ∧ x.getLsbD 6 = y.getLsbD 6 ∧ x.getLsbD 7 = y.getLsbD 7) : x = y := by
  obtain ⟨h0, h1, h2, h3, h4, h5, h6, h7⟩ := h
  refine BitVec.eq_of_getLsbD_eq fun i hi => ?_
  match i, hi with
  | 0, _ => exact h0
  | 1, _ => exact h1
  | 2, _ => exact h2
  | 3, _ => exact h3
  | 4, _ => exact h4
  | 5, _ => exact h5
  | 6, _ => exact h6
  | 7, _ => exact h7

/-! ## Blocks of memory -/

/-- `mem` with the `n` cells from `addr` on, around the end if need be,
replaced by the first `n` of `g`. -/
def blit (mem : Mem) (addr : Word) (g : Nat → Byte) (n : Nat) : Mem := fun a =>
  if (a - addr).toNat < n then g (a - addr).toNat else mem a

theorem blit_zero (mem : Mem) (addr : Word) (g : Nat → Byte) : blit mem addr g 0 = mem :=
  funext fun _ => if_neg (Nat.not_lt_zero _)

theorem blit_succ (mem : Mem) (addr : Word) (g : Nat → Byte) {n : Nat} (hn : n < 2 ^ 16) :
    blit mem addr g (n + 1)
      = Function.update (blit mem addr g n) (addr + BitVec.ofNat 16 n) (g n) := by
  funext a
  have hnat : (BitVec.ofNat 16 n).toNat = n := Nat.mod_eq_of_lt hn
  by_cases ha : a = addr + BitVec.ofNat 16 n
  · have hsub : (a - addr).toNat = n := by
      rw [ha, add_sub_cancel_left, hnat]
    rw [ha, Function.update_self, ← ha, blit, hsub, if_pos (Nat.lt_succ_self n)]
  · have hsub : (a - addr).toNat ≠ n := by
      intro h
      refine ha ?_
      rw [← h, BitVec.ofNat_toNat, BitVec.setWidth_eq, add_sub_cancel]
    rw [Function.update_of_ne ha, blit, blit]
    by_cases hlt : (a - addr).toNat < n
    · rw [if_pos hlt, if_pos (by omega)]
    · rw [if_neg hlt, if_neg (by omega)]

theorem blit_congr {mem : Mem} {addr : Word} {g g' : Nat → Byte} {n : Nat}
    (h : ∀ i < n, g i = g' i) : blit mem addr g n = blit mem addr g' n := by
  funext a
  rw [blit, blit]
  split_ifs with hlt
  · exact h _ hlt
  · rfl

/-- One range right behind another. -/
theorem blit_blit (mem : Mem) (addr : Word) (g : Nat → Byte) {m n : Nat} (hn : m + n ≤ 2 ^ 16) :
    blit (blit mem addr g m) (addr + BitVec.ofNat 16 m) (fun i => g (m + i)) n
      = blit mem addr g (m + n) := by
  induction n with
  | zero => exact blit_zero _ _ _
  | succ n ih =>
      rw [blit_succ _ _ _ (by omega), ih (by omega), ← Nat.add_assoc, blit_succ _ _ _ (by omega),
        BitVec.add_assoc, BitVec.ofNat_add]

theorem blit_in (mem : Mem) (addr : Word) (g : Nat → Byte) {n i : Nat} (hi : i < n)
    (hn : n ≤ 2 ^ 16) : blit mem addr g n (addr + BitVec.ofNat 16 i) = g i := by
  have hoff : (addr + BitVec.ofNat 16 i - addr).toNat = i := by
    rw [add_sub_cancel_left]
    exact Nat.mod_eq_of_lt (by omega)
  rw [blit, hoff, if_pos hi]

/-- A write into the range. -/
theorem update_blit (mem : Mem) (addr : Word) (g : Nat → Byte) {n i : Nat} (hi : i < n)
    (hn : n ≤ 2 ^ 16) (v : Byte) : Function.update (blit mem addr g n) (addr + BitVec.ofNat 16 i) v
      = blit mem addr (Function.update g i v) n := by
  funext a
  by_cases ha : a = addr + BitVec.ofNat 16 i
  · rw [ha, Function.update_self, blit_in _ _ _ hi hn, Function.update_self]
  · have hoff : (a - addr).toNat ≠ i := by
      rintro rfl
      refine ha ?_
      rw [BitVec.ofNat_toNat, BitVec.setWidth_eq, add_sub_cancel]
    rw [Function.update_of_ne ha, blit, blit, Function.update_of_ne hoff]

/-- What is no cell of the range stays. -/
theorem blit_out {mem : Mem} {addr : Word} {g : Nat → Byte} {n : Nat} {a : Word}
    (h : ∀ i < n, a ≠ addr + BitVec.ofNat 16 i) : blit mem addr g n a = mem a := by
  refine if_neg fun hlt => h _ hlt ?_
  rw [BitVec.ofNat_toNat, BitVec.setWidth_eq, add_sub_cancel]

end Bytes
