import CpMega88.Bcd
import CpMega88.I8080Tails

/-!
# Decimal addition on the assembly core

The same chain on `i8080.S`: `adc_comp`, then `daa_op`. Here both
corrections work on the whole byte, and what goes wrong is another case:
adding six to the low digit wraps a byte whose high digit sum is
fifteen, and the carry of the wrap is lost.
-/

namespace CpMega88

open Bytes Runs

namespace I8080

open Avr

variable {δ : Type}

theorem diffByte_neg (x k : Byte) : diffByte x (-k) false = x + k := by
  apply BitVec.eq_of_toNat_eq
  simp only [diffByte, BitVec.toNat_ofInt, BitVec.toNat_neg, BitVec.toNat_add, Bool.toNat_false]
  omega

/-! ## DAA -/

theorem daaCorrect_run (b : Nat) (k mask : Byte) (s : Avr.State (Bus δ)) {c : Bool}
    (hc : (!s.sreg.c || (s.r regF).getLsbD b) = c) :
    ∃ s', daaCorrect b k mask s = ((), s') ∧ s'.r r1 = s.r r1
      ∧ abs s' = { abs s with
        a := s.r regA + if c then k else 0#8
        f := if c then s.r regF ||| mask else s.r regF &&& ~~~mask } := by
  have hrun : daaCorrect b k mask s = (if (!s.sreg.c || (s.r regF).getLsbD b) = true then
      (do subi regA (-k); sbr regF mask : AsmM δ Unit) else cbr regF mask) s := rfl
  rw [hc] at hrun
  cases c with
  | true =>
      refine ⟨_, hrun, rfl, ?_⟩
      rw [if_pos rfl, if_pos rfl, ← diffByte_neg]
      rfl
  | false =>
      refine ⟨_, hrun, rfl, ?_⟩
      rw [if_neg Bool.false_ne_true, if_neg Bool.false_ne_true, BitVec.add_zero]
      rfl

theorem hasCY_daaFlags (f : Byte) (b : Bool) (r : Byte) :
    Isa.hasCY ((if b then f ||| fCY else f &&& ~~~fCY) &&& ~~~(fZ ||| fS ||| fP)
      ||| Isa.flagsOf r false false) = b := by
  have hmask : Isa.hasCY ((if b then f ||| fCY else f &&& ~~~fCY) &&& ~~~(fZ ||| fS ||| fP))
      = b := by
    cases b <;> simp [Isa.hasCY, fCY, fZ, fS, fP]
  have hor : ∀ x y : Byte, Isa.hasCY (x ||| y) = (Isa.hasCY x || Isa.hasCY y) :=
    fun _ _ => BitVec.getLsbD_or
  rw [hor, hmask, Isa.hasCY_flagsOf, Bool.or_false]

theorem hasCY_putAC (f : Byte) (b : Bool) :
    Isa.hasCY (if b then f ||| fAC else f &&& ~~~fAC) = Isa.hasCY f := by
  cases b <;> simp [Isa.hasCY, fAC]

/-- DAA on the assembly core: what the two corrections leave in A, and
the test of the second one as the carry. -/
theorem daaOp_reaches (s : Avr.State (Bus δ)) (h : s.r r1 = 0#8) {lo hi : Bool}
    (hlo : (10 ≤ (s.r regA).toNat % 16 ∨ Isa.hasAC (s.r regF)) ↔ lo = true)
    (hhi : (160 ≤ (s.r regA + if lo then 6#8 else 0#8).toNat ∨ Isa.hasCY (s.r regF)) ↔ hi = true) :
    ∃ f, Isa.hasCY f = hi ∧ Reaches daaOp s .fetchNext { abs s with
      a := (s.r regA + if lo then 6#8 else 0#8) + if hi then 96#8 else 0#8
      f := f } := by
  have hlow : (!(cpi regTmp1 10#8 (andi regTmp1 0x0f#8 (mov regTmp1 regA s).2).2).2.sreg.c
      || (s.r regF).getLsbD bAC) = lo := by
    have hsmall : (cpi regTmp1 10#8 (andi regTmp1 0x0f#8 (mov regTmp1 regA s).2).2).2.sreg.c
        = decide ((s.r regA &&& 0x0f#8).toNat < 10) := rfl
    have hac : (s.r regF).getLsbD bAC = Isa.hasAC (s.r regF) := rfl
    rw [hsmall, hac, toNat_and_0f, Bool.eq_iff_iff, ← hlo]
    simp
  obtain ⟨s1, h1, hz1, habs1⟩ := daaCorrect_run bAC 6#8 fAC
    (cpi regTmp1 10#8 (andi regTmp1 0x0f#8 (mov regTmp1 regA s).2).2).2 hlow
  have ha1 : s1.r regA = s.r regA + if lo then 6#8 else 0#8 := congrArg Isa.State.a habs1
  have hf1 : Isa.hasCY (s1.r regF) = Isa.hasCY (s.r regF) := by
    have hf : s1.r regF = if lo then s.r regF ||| fAC else s.r regF &&& ~~~fAC :=
      congrArg Isa.State.f habs1
    rw [hf]
    exact hasCY_putAC (s.r regF) lo
  have hhigh : (!(cpi regA 160#8 s1).2.sreg.c || (s1.r regF).getLsbD bCY) = hi := by
    have hsmall : (cpi regA 160#8 s1).2.sreg.c = decide ((s1.r regA).toNat < 160) := rfl
    have hcy : (s1.r regF).getLsbD bCY = Isa.hasCY (s1.r regF) := rfl
    rw [hsmall, hcy, hf1, ha1, Bool.eq_iff_iff, ← hhi]
    simp
  obtain ⟨s2, h2, hz2, habs2⟩ := daaCorrect_run bCY 96#8 fCY (cpi regA 160#8 s1).2 hhigh
  have hf2 : s2.r regF = if hi then s1.r regF ||| fCY else s1.r regF &&& ~~~fCY :=
    congrArg Isa.State.f habs2
  refine ⟨s2.r regF &&& ~~~(fZ ||| fS ||| fP) ||| Isa.flagsOf (s2.r regA) false false, ?_,
    .bind rfl (.bind rfl (.bind rfl (.bind h1 (.bind rfl (.bind h2 (.bind rfl (.bind rfl
      (.of_eq (flagZsp_reaches _ (hz2.trans (hz1.trans h))) ?_))))))))⟩
  · rw [hf2, hasCY_daaFlags]
  · have hflags : ∀ f : Byte, { abs s2 with f := f } = { abs s with
        a := (s.r regA + if lo then 6#8 else 0#8) + if hi then 96#8 else 0#8
        f := f } := by
      intro f
      have hmid : abs (cpi regA 160#8 s1).2 = abs s1 := rfl
      rw [habs2, hmid, habs1]
      exact congrArg (fun a => { abs s with a := a + if hi then 96#8 else 0#8, f := f }) ha1
    exact hflags _

/-! ## One byte -/

/-- Add two packed bytes: A from the first, `adc_comp` with the second,
`daa_op`. -/
def addBcd (p : Byte × Byte) : AsmM δ Byte := do
  modify fun s => s.set regA p.1
  modify fun s => s.set regTmp1 p.2
  discard adcComp
  discard daaOp
  return (← get).r regA

/-- What `addBcd` leaves, in numbers: DAA works on the binary sum `t`. -/
theorem addBcd_run (p : Byte × Byte) (s : Avr.State (Bus δ)) (h : s.r r1 = 0#8) {t : Nat}
    (ht : t = p.1.toNat + p.2.toNat + (Isa.hasCY (s.r regF)).toNat) {lo hi : Bool}
    (hlo : (10 ≤ t % 16
      ∨ 16 ≤ p.1.toNat % 16 + p.2.toNat % 16 + (Isa.hasCY (s.r regF)).toNat) ↔ lo = true)
    (hhi : (160 ≤ (t + 6 * lo.toNat) % 256 ∨ 256 ≤ t) ↔ hi = true) :
    (addBcd p s).1.toNat = (t + 6 * lo.toNat + 96 * hi.toNat) % 256
      ∧ Isa.hasCY ((addBcd p s).2.r regF) = hi
      ∧ (addBcd p s).2.r r1 = 0#8 := by
  obtain ⟨s1, hs1⟩ : ∃ s1, s1 = (adcComp ((s.set regA p.1).set regTmp1 p.2)).2 := ⟨_, rfl⟩
  have hadc := adcComp_reaches ((s.set regA p.1).set regTmp1 p.2) h
  have ha : s1.r regA = (Isa.addWith Isa.coreAux p.1 p.2 (Isa.hasCY (s.r regF))).1 :=
    hs1 ▸ congrArg Isa.State.a hadc.stands
  have hf : s1.r regF = (Isa.addWith Isa.coreAux p.1 p.2 (Isa.hasCY (s.r regF))).2 :=
    hs1 ▸ congrArg Isa.State.f hadc.stands
  have hanat : (s1.r regA).toNat = t % 256 := by
    rw [ha, Isa.addWith, ← ht]
    exact BitVec.toNat_ofNat t 8
  have hsix : ∀ b : Bool, (if b then 6#8 else 0#8 : Byte).toNat = 6 * b.toNat := by decide
  have hninety : ∀ b : Bool, (if b then 96#8 else 0#8 : Byte).toNat = 96 * b.toNat := by decide
  have hmid : (s1.r regA + if lo then 6#8 else 0#8).toNat = (t + 6 * lo.toNat) % 256 := by
    rw [BitVec.toNat_add, hanat, hsix, Nat.mod_add_mod]
  have hmod : t % 256 % 16 = t % 16 := by omega
  have hlo' : (10 ≤ (s1.r regA).toNat % 16 ∨ Isa.hasAC (s1.r regF)) ↔ lo = true := by
    rw [← hlo, hanat, hmod, hf, Isa.addWith, Isa.hasAC_flagsOf]
    simp only [Isa.coreAux, Isa.nibbleCarry, decide_eq_true_eq]
  have hhi' : (160 ≤ (s1.r regA + if lo then 6#8 else 0#8).toNat ∨ Isa.hasCY (s1.r regF))
      ↔ hi = true := by
    rw [← hhi, hmid, hf, Isa.addWith, Isa.hasCY_flagsOf, ← ht, decide_eq_true_eq]
  obtain ⟨f, hcy, hdaa⟩ := daaOp_reaches s1 (hs1 ▸ hadc.zero) hlo' hhi'
  have hrun : addBcd p s = ((daaOp s1).2.r regA, (daaOp s1).2) := by
    simp only [addBcd, bind_run, modify_run, discard_run, get_run, pure_run, ← hs1]
  have ha2 : (daaOp s1).2.r regA
      = (s1.r regA + if lo then 6#8 else 0#8) + if hi then 96#8 else 0#8 :=
    congrArg Isa.State.a hdaa.stands
  have hf2 : (daaOp s1).2.r regF = f := congrArg Isa.State.f hdaa.stands
  rw [hrun]
  refine ⟨?_, ?_, hdaa.zero⟩
  · show ((daaOp s1).2.r regA).toNat = _
    rw [ha2, BitVec.toNat_add, hmid, hninety, Nat.mod_add_mod]
  · show Isa.hasCY ((daaOp s1).2.r regF) = hi
    rw [hf2, hcy]

/-- Both corrections on digit sums `sl` and `sh`: wrong exactly where the
first one wraps the byte. -/
theorem corrections : ∀ sl < 20, ∀ sh < 19,
    let t := 16 * sh + sl
    let lo := decide (10 ≤ t % 16 ∨ 16 ≤ sl)
    let hi := decide (160 ≤ (t + 6 * lo.toNat) % 256 ∨ 256 ≤ t)
    let v := 10 * sh + sl
    ((t + 6 * lo.toNat + 96 * hi.toNat) % 256 = 16 * (v % 100 / 10) + v % 100 % 10
      ↔ ¬(sh = 15 ∧ 10 ≤ sl ∧ sl ≤ 15))
    ∧ (¬(sh = 15 ∧ 10 ≤ sl ∧ sl ≤ 15) → hi = decide (100 ≤ v)) := by
  decide +kernel

theorem addBcd_ok (p : Byte × Byte) (hp : IsBcd p.1 ∧ IsBcd p.2) (s : Avr.State (Bus δ))
    (h : s.r r1 = 0#8) :
    Digits.CellOk 100 pairValue packBcd (fun s : Avr.State (Bus δ) => Isa.hasCY (s.r regF)) addBcd
      (fun p c => ¬LowCarryMeets 15 p c) (fun s => s.r r1 = 0#8) p s := by
  obtain ⟨hsl, hsh, ht, hv⟩ := digitSums hp (Isa.hasCY (s.r regF)) rfl rfl
  obtain ⟨hdigits, hcarry⟩ := corrections _ hsl _ hsh
  rw [ht, hv] at hdigits hcarry
  obtain ⟨ha, hcy, hz⟩ :=
    addBcd_run p s h rfl decide_eq_true_iff.symm decide_eq_true_iff.symm
  exact {
    small := pairValue_small hp
    right := by rw [packBcd_iff, ha]; exact hdigits
    carry := fun h => hcy.trans (hcarry h)
    inv := hz }

/-- Decimal addition on the assembly core, starting without a carry:
right if and only if at no position a low carry meets a high digit sum
of fifteen. -/
theorem bcd_add_asm_iff (zs : List (Byte × Byte)) (hbcd : ∀ p ∈ zs, IsBcd p.1 ∧ IsBcd p.2)
    (s : Avr.State (Bus δ)) (h : s.r r1 = 0#8) (hcy : Isa.hasCY (s.r regF) = false) :
    IsBcdSum zs (Digits.ripple addBcd zs s).1 (Isa.hasCY ((Digits.ripple addBcd zs s).2.r regF))
      ↔ ∀ i (h : i < zs.length), ¬LowCarryMeets 15 zs[i] (carryInto zs i) :=
  bcdChain_iff addBcd_ok hbcd h hcy

/-- 3458 + 1279 = 4737. -/
theorem bcd_add_asm_3458_1279 :
    IsBcdSum [(0x58#8, 0x79#8), (0x34#8, 0x12#8)]
      (Digits.ripple addBcd [(0x58#8, 0x79#8), (0x34#8, 0x12#8)] (cold 0)).1
      (Isa.hasCY
        ((Digits.ripple addBcd [(0x58#8, 0x79#8), (0x34#8, 0x12#8)] (cold 0)).2.r regF)) :=
  (bcd_add_asm_iff _ (by simp [IsBcd]) (cold 0) (by decide) (by decide)).mpr (by decide)

/-- 75 + 85 = 00, without a carry. -/
theorem bcd_add_asm_75_85 :
    (Digits.ripple addBcd [(0x75#8, 0x85#8)] (cold 0)).1 = [0x00#8]
      ∧ ¬IsBcdSum [(0x75#8, 0x85#8)] (Digits.ripple addBcd [(0x75#8, 0x85#8)] (cold 0)).1
        (Isa.hasCY ((Digits.ripple addBcd [(0x75#8, 0x85#8)] (cold 0)).2.r regF)) := by
  decide +kernel

end I8080

end CpMega88
