import CpMega88.Lib.Digits
import CpMega88.Cpu8080Refine

/-!
# Decimal addition on the C core

Packed BCD numbers, lowest byte first, added byte by byte. The first
part is about any adder of packed bytes: `bcdChain_iff` says what a chain
of them computes when one adder is right except on certain digits.

The second part is ADC and DAA on `cpu_8080.c`, with DAA in closed form
(`daa_eq`). DAA tests the high digit before the correction of the low
digit has carried into it, so a carry into a high digit sum of nine is
lost; `bcd_add_iff` says that nothing else goes wrong.
-/

namespace CpMega88

open Bytes Runs

/-! ## Packed BCD -/

/-- Both nibbles are decimal digits. -/
def IsBcd (b : Byte) : Prop := b.toNat / 16 ≤ 9 ∧ b.toNat % 16 ≤ 9

instance (b : Byte) : Decidable (IsBcd b) := inferInstanceAs (Decidable (_ ∧ _))

def bcdValue (b : Byte) : Nat := 10 * (b.toNat / 16) + b.toNat % 16

def packBcd (v : Nat) : Byte := BitVec.ofNat 8 (16 * (v / 10) + v % 10)

/-- The number written by a list of packed bytes, lowest first. -/
def bcdNumber (bs : List Byte) : Nat := Digits.total 100 bcdValue bs

/-- The `n` lowest packed bytes of a number. -/
def bcdBytes (n N : Nat) : List Byte := Digits.write packBcd 100 n N

/-- The sum of the two bytes at a position. -/
def pairValue (p : Byte × Byte) : Nat := bcdValue p.1 + bcdValue p.2

/-- The true decimal carry into position `i`. -/
def carryInto (zs : List (Byte × Byte)) (i : Nat) : Nat := Digits.carryInto 100 pairValue 0 zs i

/-- `out` and `cy` are the bytes and the carry of the sum of the two
numbers written by the pairs `zs`. -/
def IsBcdSum (zs : List (Byte × Byte)) (out : List Byte) (cy : Bool) : Prop :=
  out = bcdBytes zs.length
      ((bcdNumber (zs.map Prod.fst) + bcdNumber (zs.map Prod.snd)) % 100 ^ zs.length)
    ∧ (cy = true ↔ 100 ^ zs.length ≤ bcdNumber (zs.map Prod.fst) + bcdNumber (zs.map Prod.snd))

instance (zs : List (Byte × Byte)) (out : List Byte) (cy : Bool) :
    Decidable (IsBcdSum zs out cy) := inferInstanceAs (Decidable (_ ∧ _))

/-- A high digit sum of `k` over a low digit sum, with the carry `c`,
that is no digit but fits its nibble. -/
def LowCarryMeets (k : Nat) (p : Byte × Byte) (c : Nat) : Prop :=
  p.1.toNat / 16 + p.2.toNat / 16 = k ∧ 10 ≤ p.1.toNat % 16 + p.2.toNat % 16 + c
    ∧ p.1.toNat % 16 + p.2.toNat % 16 + c ≤ 15

instance (k : Nat) (p : Byte × Byte) (c : Nat) : Decidable (LowCarryMeets k p c) :=
  inferInstanceAs (Decidable (_ ∧ _ ∧ _))

theorem total_pairValue (zs : List (Byte × Byte)) :
    Digits.total 100 pairValue zs
      = bcdNumber (zs.map Prod.fst) + bcdNumber (zs.map Prod.snd) := by
  induction zs with
  | nil => rfl
  | cons p zs ih =>
      simp only [bcdNumber, List.map_cons, Digits.total_cons] at ih ⊢
      rw [ih, pairValue]
      omega

theorem pairValue_small {p : Byte × Byte} (hp : IsBcd p.1 ∧ IsBcd p.2) :
    pairValue p + 1 < 2 * 100 := by
  obtain ⟨⟨hx, hx'⟩, hy, hy'⟩ := hp
  rw [pairValue, bcdValue, bcdValue]
  omega

/-- The digit sums of two packed bytes and a carry. -/
theorem digitSums {p : Byte × Byte} (hp : IsBcd p.1 ∧ IsBcd p.2) (c : Bool) {sl sh : Nat}
    (hsl : sl = p.1.toNat % 16 + p.2.toNat % 16 + c.toNat)
    (hsh : sh = p.1.toNat / 16 + p.2.toNat / 16) :
    sl < 20 ∧ sh < 19 ∧ 16 * sh + sl = p.1.toNat + p.2.toNat + c.toNat
      ∧ 10 * sh + sl = pairValue p + c.toNat := by
  obtain ⟨⟨hx, hx'⟩, hy, hy'⟩ := hp
  have hc := Bool.toNat_le c
  rw [pairValue, bcdValue, bcdValue]
  omega

theorem packBcd_iff (b : Byte) (v : Nat) :
    b = packBcd (v % 100) ↔ b.toNat = 16 * (v % 100 / 10) + v % 100 % 10 := by
  have hlt : 16 * (v % 100 / 10) + v % 100 % 10 < 256 := by omega
  rw [← BitVec.toNat_inj, packBcd, BitVec.toNat_ofNat, Nat.mod_eq_of_lt hlt]

/-- A chain of adders that go wrong on the digits `Missed` computes the
sum if and only if no position, with the true carry into it, is
missed. -/
theorem bcdChain_iff {σ : Type} {cy : σ → Bool} {cell : Byte × Byte → σ → Byte × σ}
    {Missed : Byte × Byte → Nat → Prop} {Inv : σ → Prop}
    (hcell : ∀ p, IsBcd p.1 ∧ IsBcd p.2 → ∀ s, Inv s →
      Digits.CellOk 100 pairValue packBcd cy cell (fun p c => ¬Missed p c) Inv p s)
    {zs : List (Byte × Byte)} (hbcd : ∀ p ∈ zs, IsBcd p.1 ∧ IsBcd p.2) {s : σ} (hs : Inv s)
    (hcy : cy s = false) :
    IsBcdSum zs (Digits.ripple cell zs s).1 (cy (Digits.ripple cell zs s).2)
      ↔ ∀ i (h : i < zs.length), ¬Missed zs[i] (carryInto zs i) := by
  have h := Digits.ripple_iff (by decide : 0 < 100) (fun p hp => hcell p (hbcd p hp)) s hs
  rw [hcy, Bool.toNat_false, Nat.zero_add, total_pairValue] at h
  exact h

namespace Cpu8080

open Isa

variable {δ : Type}

/-! ## DAA -/

theorem daaLow_run (w : Work δ) (b : Bool) (hb : (9 < w.a.toNat ∨ hasAC w.f) ↔ b = true) :
    daaLow w = ((), { w with
      a := w.a + if b then 6#8 else 0#8
      f := if b then w.f ||| fAC else w.f &&& ~~~fAC }) := by
  have hac : 0#8 ≠ w.f &&& fAC ↔ hasAC w.f = true :=
    ne_comm.trans (and_bit_ne_zero w.f (i := 4) rfl (by decide))
  have hc : w.a > 9#8 ∨ 0#8 ≠ w.f &&& fAC ↔ b = true := by
    rw [hac, ← hb]
    exact Iff.rfl
  have hrun : daaLow w = _ := ite_run _ _ w
  rw [hrun]
  cases b with
  | true => exact if_pos (hc.mpr rfl)
  | false =>
      refine (if_neg (mt hc.mp Bool.false_ne_true)).trans ?_
      rw [if_neg Bool.false_ne_true, BitVec.add_zero]
      rfl

theorem daaHigh_run (work8 : Byte) (w : Work δ) (b : Bool)
    (hb : (9 < work8.toNat ∨ hasCY w.f) ↔ b = true) :
    daaHigh work8 w = (work8 + if b then 6#8 else 0#8, { w with f := setCY w.f b }) := by
  have hcy : 0#8 ≠ w.f &&& fCY ↔ hasCY w.f = true :=
    ne_comm.trans (and_bit_ne_zero w.f (i := 0) rfl (by decide))
  have hc : work8 > 9#8 ∨ 0#8 ≠ w.f &&& fCY ↔ b = true := by
    rw [hcy, ← hb]
    exact Iff.rfl
  have hrun : daaHigh work8 w = _ := ite_run _ _ w
  rw [hrun]
  cases b with
  | true =>
      refine (if_pos (hc.mpr rfl)).trans ?_
      rw [setCY_true]
      rfl
  | false =>
      refine (if_neg (mt hc.mp Bool.false_ne_true)).trans ?_
      rw [setCY_false, if_neg Bool.false_ne_true, BitVec.add_zero]
      rfl

/-- The low digit needs its correction. -/
def daaLo (a f : Byte) : Bool := decide (9 < a.toNat % 16) || hasAC f

/-- The high digit does, before the low one has carried into it. -/
def daaHi (a f : Byte) : Bool := decide (9 < a.toNat / 16) || hasCY f

/-- A after DAA. -/
def daaA (a f : Byte) : Byte :=
  (a >>> 4 + if daaHi a f then 6#8 else 0#8) <<< 4
    + ((a &&& 0x0f#8) + if daaLo a f then 6#8 else 0#8)

/-- F after DAA. -/
def daaF (a f : Byte) : Byte :=
  (setCY (if daaLo a f then f ||| fAC else f &&& ~~~fAC) (daaHi a f) &&& ~~~(fZ ||| fS ||| fP))
    ||| flagsOf (daaA a f) false false

theorem daaLo_iff (a f : Byte) :
    (9 < a.toNat % 16 ∨ hasAC f = true) ↔ daaLo a f = true := by
  simp [daaLo]

theorem daaHi_iff (a f : Byte) :
    (9 < a.toNat / 16 ∨ hasCY f = true) ↔ daaHi a f = true := by
  simp [daaHi]

theorem daa_eq (w : Work δ) : daa w = ((), { w with a := daaA w.a w.f, f := daaF w.a w.f }) := by
  have hlow := daaLow_run { w with a := w.a &&& 0x0f#8 } (daaLo w.a w.f)
    (by rw [← daaLo_iff, toNat_and_0f])
  have hcy : hasCY (if daaLo w.a w.f then w.f ||| fAC else w.f &&& ~~~fAC) = hasCY w.f := by
    cases daaLo w.a w.f <;> simp [hasCY, fAC]
  have hhigh := daaHigh_run (w.a >>> 4) { w with
    a := (w.a &&& 0x0f#8) + if daaLo w.a w.f then 6#8 else 0#8
    f := if daaLo w.a w.f then w.f ||| fAC else w.f &&& ~~~fAC } (daaHi w.a w.f)
    (by rw [← daaHi_iff, toNat_shr4, hcy])
  simp only [daa, bind_run, get_run, modify_run, hlow, hhigh, flagZsp_run]
  rfl

/-- DAA in numbers: 6 where a digit, by itself, is too large or its
carry is set. -/
theorem daa_run (w : Work δ) (lo hi : Bool) (hlo : (9 < w.a.toNat % 16 ∨ hasAC w.f) ↔ lo = true)
    (hhi : (9 < w.a.toNat / 16 ∨ hasCY w.f) ↔ hi = true) :
    (daa w).2.a.toNat
        = (16 * (w.a.toNat / 16 + 6 * hi.toNat) + (w.a.toNat % 16 + 6 * lo.toNat)) % 256
      ∧ hasCY (daa w).2.f = hi := by
  obtain rfl : lo = daaLo w.a w.f := Bool.eq_iff_iff.mpr (hlo.symm.trans (daaLo_iff w.a w.f))
  obtain rfl : hi = daaHi w.a w.f := Bool.eq_iff_iff.mpr (hhi.symm.trans (daaHi_iff w.a w.f))
  rw [daa_eq]
  constructor
  · have hsix : ∀ b : Bool, (if b then 6#8 else 0#8 : Byte).toNat = 6 * b.toNat := by decide
    simp only [daaA, BitVec.toNat_add, BitVec.toNat_shiftLeft, toNat_and_0f, toNat_shr4, hsix]
    rw [Nat.shiftLeft_eq]
    omega
  · have hzsp : ∀ f r : Byte, hasCY (f &&& ~~~(fZ ||| fS ||| fP) ||| flagsOf r false false)
        = hasCY f := by
      intro f r
      have hmask : hasCY (f &&& ~~~(fZ ||| fS ||| fP)) = hasCY f := by
        simp [hasCY, fZ, fS, fP]
      have hor : hasCY (f &&& ~~~(fZ ||| fS ||| fP) ||| flagsOf r false false)
          = (hasCY (f &&& ~~~(fZ ||| fS ||| fP)) || hasCY (flagsOf r false false)) :=
        BitVec.getLsbD_or
      rw [hor, hmask, hasCY_flagsOf, Bool.or_false]
    rw [daaF, hzsp, hasCY_setCY]

/-! ## One byte -/

/-- Add two packed bytes: A from the first, ADC B with the second, DAA. -/
def addBcd (ports : Ports δ) (p : Byte × Byte) : CpuM δ Byte := do
  modify fun w => { w with a := p.1 }
  modify fun w => { w with b := p.2 }
  discard (switch ports 0x88#8)
  discard (switch ports 0x27#8)
  return (← get).a

/-- What `addBcd` leaves, in numbers: DAA works on the binary sum `t`. -/
theorem addBcd_run (ports : Ports δ) (p : Byte × Byte) (w : Work δ) {t : Nat}
    (ht : t = p.1.toNat + p.2.toNat + (hasCY w.f).toNat) {lo hi : Bool}
    (hlo : (9 < t % 16 ∨ 16 ≤ p.1.toNat % 16 + p.2.toNat % 16 + (hasCY w.f).toNat) ↔ lo = true)
    (hhi : (9 < t % 256 / 16 ∨ 256 ≤ t) ↔ hi = true) :
    (addBcd ports p w).1.toNat
        = (16 * (t % 256 / 16 + 6 * hi.toNat) + (t % 16 + 6 * lo.toNat)) % 256
      ∧ hasCY (addBcd ports p w).2.f = hi := by
  obtain ⟨w', hw'⟩ : ∃ w' : Work δ, w' = { w with
      a := (addWith coreAux p.1 p.2 (hasCY w.f)).1, b := p.2
      f := (addWith coreAux p.1 p.2 (hasCY w.f)).2 } := ⟨_, rfl⟩
  have hrun : addBcd ports p w = ((daa w').2.a, (daa w').2) := by
    have hadcArm : switch ports 0x88#8 = brk (do
        let v ← adc (← get).b
        modify fun w => { w with a := v }) := rfl
    have hdaaArm : switch ports 0x27#8 = brk daa := rfl
    have hadc := adc_run p.2 { w with a := p.1, b := p.2 }
    simp only [addBcd, hadcArm, hdaaArm, brk, bind_run, modify_run, discard_run, get_run,
      pure_run, hadc, hw']
  have ha : w'.a.toNat = t % 256 := by
    rw [hw', addWith, ← ht]
    exact BitVec.toNat_ofNat t 8
  have hmod : t % 256 % 16 = t % 16 := by omega
  have hlo' : (9 < w'.a.toNat % 16 ∨ hasAC w'.f) ↔ lo = true := by
    rw [← hlo, ha, hmod, hw', addWith, hasAC_flagsOf]
    simp only [coreAux, nibbleCarry, decide_eq_true_eq]
  have hhi' : (9 < w'.a.toNat / 16 ∨ hasCY w'.f) ↔ hi = true := by
    rw [← hhi, ha, hw', addWith, hasCY_flagsOf, ← ht, decide_eq_true_eq]
  have hdaa := daa_run w' lo hi hlo' hhi'
  rw [ha, hmod] at hdaa
  rw [hrun]
  exact hdaa

/-- Both corrections on digit sums `sl` and `sh`, against the decimal
digits and carry: wrong exactly where the low carry meets a nine. -/
theorem corrections : ∀ sl < 20, ∀ sh < 19,
    let t := 16 * sh + sl
    let lo := decide (9 < t % 16 ∨ 16 ≤ sl)
    let hi := decide (9 < t % 256 / 16 ∨ 256 ≤ t)
    let v := 10 * sh + sl
    ((16 * (t % 256 / 16 + 6 * hi.toNat) + (t % 16 + 6 * lo.toNat)) % 256
        = 16 * (v % 100 / 10) + v % 100 % 10
      ↔ ¬(sh = 9 ∧ 10 ≤ sl ∧ sl ≤ 15))
    ∧ (¬(sh = 9 ∧ 10 ≤ sl ∧ sl ≤ 15) → hi = decide (100 ≤ v)) := by
  decide +kernel

theorem addBcd_ok (ports : Ports δ) (p : Byte × Byte) (hp : IsBcd p.1 ∧ IsBcd p.2) (w : Work δ) :
    Digits.CellOk 100 pairValue packBcd (fun w : Work δ => hasCY w.f) (addBcd ports)
      (fun p c => ¬LowCarryMeets 9 p c) (fun _ => True) p w := by
  obtain ⟨hsl, hsh, ht, hv⟩ := digitSums hp (hasCY w.f) rfl rfl
  obtain ⟨hdigits, hcarry⟩ := corrections _ hsl _ hsh
  rw [ht, hv] at hdigits hcarry
  obtain ⟨ha, hcy⟩ := addBcd_run ports p w rfl decide_eq_true_iff.symm decide_eq_true_iff.symm
  exact {
    small := pairValue_small hp
    right := by rw [packBcd_iff, ha]; exact hdigits
    carry := fun h => hcy.trans (hcarry h)
    inv := trivial }

/-- Decimal addition on the C core, starting without a carry: right if
and only if at no position a low carry meets a high digit sum of nine. -/
theorem bcd_add_iff (ports : Ports δ) (zs : List (Byte × Byte))
    (hbcd : ∀ p ∈ zs, IsBcd p.1 ∧ IsBcd p.2) (w : Work δ) (hcy : hasCY w.f = false) :
    IsBcdSum zs (Digits.ripple (addBcd ports) zs w).1
        (hasCY (Digits.ripple (addBcd ports) zs w).2.f)
      ↔ ∀ i (h : i < zs.length), ¬LowCarryMeets 9 zs[i] (carryInto zs i) :=
  bcdChain_iff (fun p hp w _ => addBcd_ok ports p hp w) hbcd trivial hcy

/-- 3458 + 1279 = 4737. -/
theorem bcd_add_3458_1279 :
    IsBcdSum [(0x58#8, 0x79#8), (0x34#8, 0x12#8)]
      (Digits.ripple (addBcd .idle) [(0x58#8, 0x79#8), (0x34#8, 0x12#8)] (Work.cold 0)).1
      (hasCY
        (Digits.ripple (addBcd .idle) [(0x58#8, 0x79#8), (0x34#8, 0x12#8)] (Work.cold 0)).2.f) :=
  (bcd_add_iff .idle _ (by simp [IsBcd]) (Work.cold 0) (by decide)).mpr (by decide)

/-- 45 + 55 = A0, without a carry. -/
theorem bcd_add_45_55 :
    (Digits.ripple (addBcd .idle) [(0x45#8, 0x55#8)] (Work.cold 0)).1 = [0xa0#8]
      ∧ ¬IsBcdSum [(0x45#8, 0x55#8)]
        (Digits.ripple (addBcd .idle) [(0x45#8, 0x55#8)] (Work.cold 0)).1
        (hasCY (Digits.ripple (addBcd .idle) [(0x45#8, 0x55#8)] (Work.cold 0)).2.f) := by
  decide +kernel

end Cpu8080

end CpMega88
