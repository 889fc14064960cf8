import Mathlib.Tactic.FinCases
import CpMega88.Cpu8080
import CpMega88.IsaArith
import CpMega88.Lib.Runs

/-!
# The C core implements the instruction set

The arithmetic helpers first: each recovers its carries by comparing a
truncated result with an operand, and each is shown to compute the exact
result and flags of its `Isa` counterpart (`add_run` to `ora_run`,
`inr_run`, `dcr_run`, `dad_run`). Then the switch, one constructor of
`Isa.Instr` at a time (`switch_refines`): the arms of a family are
compared with one line of `Isa.exec`. DAA is the one instruction the C
core computes differently; it has a module of its own.
-/

namespace CpMega88

open Bytes Runs

namespace Cpu8080

open Isa

variable {δ : Type}

/-! ## Flag bytes -/

/-- The parity table and the two tests of `flag_zsp`, on every byte. -/
theorem flagsOf_zsp : ∀ val : Byte,
    flagsOf val false false = (if 0#8 = val then fZ else 0#8) ||| (val &&& fS)
      ||| (if 1 ≠ tblPar.getD (val &&& 0x0f#8).toNat 0 + tblPar.getD (val >>> 4).toNat 0
        then fP else 0#8) := by
  decide +kernel

theorem flagsOf_fCY_fAC (r : Byte) (ac cy : Bool) : flagsOf r ac cy
    = (if cy then fCY else 0#8) ||| (if ac then fAC else 0#8) ||| flagsOf r false false :=
  flagsOf_carries r ac cy

theorem and_fCY (f : Byte) : f &&& fCY = if hasCY f then fCY else 0#8 :=
  and_flagCY f

theorem toNat_and_fCY (f : Byte) : (f &&& fCY).toNat = (hasCY f).toNat := by
  rw [and_fCY]
  cases hasCY f <;> rfl

/-! ## Running the monad -/

theorem load8_run (addr : Word) (w : Work δ) : load8 addr w = (w.mem addr, w) := rfl

theorem orF_prop_run (c : Prop) [Decidable c] (mask : Byte) (w : Work δ) :
    orF c mask w = ((), { w with f := w.f ||| (if c then mask else 0#8) }) := by
  rw [orF, modify_run]
  by_cases hc : c
  · rw [if_pos hc, if_pos hc]
  · rw [if_neg hc, if_neg hc, BitVec.or_zero]

theorem orF_run {c : Prop} [Decidable c] {b : Bool} (h : c ↔ b = true) (mask : Byte)
    (w : Work δ) :
    orF c mask w = ((), { w with f := w.f ||| (if b then mask else 0#8) }) := by
  rw [orF_prop_run]
  simp only [h]

theorem putF_run {c : Prop} [Decidable c] {b : Bool} (h : c ↔ b = true) (w : Work δ) :
    putF c fCY w = ((), { w with f := setCY w.f b }) := by
  rw [putF, modify_run]
  by_cases hc : c
  · rw [if_pos hc, h.mp hc, setCY_true]
    rfl
  · rw [if_neg hc, Bool.eq_false_iff.mpr (mt h.mpr hc), setCY_false]
    rfl

theorem flagZsp_run (val : Byte) (w : Work δ) :
    flagZsp val w = ((), { w with f := w.f ||| flagsOf val false false }) := by
  rw [flagZsp, bind_run, orF_prop_run, bind_run, modify_run, orF_prop_run, flagsOf_zsp]
  simp only [BitVec.or_assoc]

/-- The common tail of the helpers that start from cleared flags: a
carry test, an auxiliary carry test, sign, zero and parity. -/
theorem flags_run {r : Byte} {cyP acP : Prop} [Decidable cyP] [Decidable acP] {cy ac : Bool}
    (hcy : cyP ↔ cy = true) (hac : acP ↔ ac = true) (w : Work δ) :
    (do modify fun w => { w with f := 0#8 }
        orF cyP fCY
        orF acP fAC
        flagZsp r
        return r : CpuM δ Byte) w = (r, { w with f := flagsOf r ac cy }) := by
  simp only [bind_run, modify_run, orF_run hcy, orF_run hac, flagZsp_run, pure_run]
  rw [flagsOf_fCY_fAC r ac cy, BitVec.zero_or]

/-! ## The arithmetic helpers -/

theorem add_run (val : Byte) (w : Work δ) :
    add val w = ((addWith coreAux w.a val false).1,
      { w with f := (addWith coreAux w.a val false).2 }) := by
  have hr : BitVec.ofNat 8 (w.a.toNat + val.toNat + false.toNat) = w.a + val := by
    simp [BitVec.ofNat_add]
  have hcy : w.a + val < w.a ↔ decide (256 ≤ w.a.toNat + val.toNat + false.toNat) = true := by
    simp only [BitVec.lt_def, BitVec.toNat_add, Bool.toNat_false, decide_eq_true_eq]
    omega
  have hac : w.a + val &&& 0xf#8 < w.a &&& 0xf#8 ↔ nibbleCarry w.a val false = true := by
    simp only [nibbleCarry, BitVec.lt_def, toNat_and_0f, BitVec.toNat_add, Bool.toNat_false,
      decide_eq_true_eq]
    omega
  simp only [addWith, coreAux, hr]
  exact flags_run hcy hac w

theorem adc_run (val : Byte) (w : Work δ) :
    adc val w = ((addWith coreAux w.a val (hasCY w.f)).1,
      { w with f := (addWith coreAux w.a val (hasCY w.f)).2 }) := by
  have hc : (w.f &&& fCY).toNat = (hasCY w.f).toNat := toNat_and_fCY w.f
  have hr : BitVec.ofNat 8 (w.a.toNat + val.toNat + (hasCY w.f).toNat)
      = w.a + val + (w.f &&& fCY) := by
    simp [BitVec.ofNat_add, ← hc]
  have hcy : (w.a + val + (w.f &&& fCY)).toNat < w.a.toNat + (w.f &&& fCY).toNat
      ↔ decide (256 ≤ w.a.toNat + val.toNat + (hasCY w.f).toNat) = true := by
    simp only [BitVec.toNat_add, decide_eq_true_eq, hc]
    omega
  have hac : (w.a + val + (w.f &&& fCY) &&& 0xf#8).toNat
        < (w.a &&& 0xf#8).toNat + (w.f &&& fCY).toNat
      ↔ nibbleCarry w.a val (hasCY w.f) = true := by
    have := Bool.toNat_le (hasCY w.f)
    simp only [nibbleCarry, toNat_and_0f, BitVec.toNat_add, decide_eq_true_eq, hc]
    omega
  simp only [addWith, coreAux, hr]
  exact flags_run hcy hac w

/-- The borrow tests of `sub` and `sbb` in one: the truncated difference
exceeds the minuend exactly when the exact one is negative. -/
theorem borrow_iff (a v c : Byte) (b : Bool) (hc : c.toNat = b.toNat) :
    ((a - v - c).toNat : Int) > a.toNat - c.toNat
      ↔ decide ((a.toNat : Int) - v.toNat - b.toNat < 0) = true := by
  have := Bool.toNat_le b
  simp only [BitVec.toNat_sub, decide_eq_true_eq, hc]
  omega

theorem nibbleBorrow_iff (a v c : Byte) (b : Bool) (hc : c.toNat = b.toNat) :
    ((a - v - c &&& 0xf#8).toNat : Int) > (a &&& 0xf#8).toNat - c.toNat
      ↔ coreAux.sub a v b = true := by
  have := Bool.toNat_le b
  simp only [coreAux, toNat_and_0f, BitVec.toNat_sub, decide_eq_true_eq, hc]
  omega

theorem ofInt_sub (a v c : Byte) (b : Bool) (hc : c.toNat = b.toNat) :
    BitVec.ofInt 8 ((a.toNat : Int) - v.toNat - b.toNat) = a - v - c := by
  have := Bool.toNat_le b
  apply BitVec.eq_of_toNat_eq
  simp only [BitVec.toNat_ofInt, BitVec.toNat_sub, hc]
  omega

theorem sbb_run (val : Byte) (w : Work δ) :
    sbb val w = ((subWith coreAux w.a val (hasCY w.f)).1,
      { w with f := (subWith coreAux w.a val (hasCY w.f)).2 }) := by
  have hc : (w.f &&& fCY).toNat = (hasCY w.f).toNat := toNat_and_fCY w.f
  simp only [subWith, ofInt_sub w.a val _ _ hc]
  exact flags_run (borrow_iff w.a val _ _ hc) (nibbleBorrow_iff w.a val _ _ hc) w

theorem sub_run (val : Byte) (w : Work δ) :
    sub val w = ((subWith coreAux w.a val false).1,
      { w with f := (subWith coreAux w.a val false).2 }) := by
  have hcy : w.a - val > w.a ↔ decide ((w.a.toNat : Int) - val.toNat - false.toNat < 0) = true := by
    simp only [gt_iff_lt, BitVec.lt_def, BitVec.toNat_sub, decide_eq_true_eq, Bool.toNat_false]
    omega
  have hac : w.a - val &&& 0xf#8 > w.a &&& 0xf#8 ↔ coreAux.sub w.a val false = true := by
    simp only [coreAux, gt_iff_lt, BitVec.lt_def, toNat_and_0f, BitVec.toNat_sub,
      decide_eq_true_eq, Bool.toNat_false]
    omega
  simp only [subWith, ofInt_sub w.a val 0#8 false rfl, BitVec.sub_zero]
  exact flags_run hcy hac w

theorem ana_run (val : Byte) (w : Work δ) :
    ana val w = ((logic (w.a &&& val) true).1, { w with f := (logic (w.a &&& val) true).2 }) := by
  simp only [ana, bind_run, get_run, modify_run, flagZsp_run, pure_run, logic]
  rw [flagsOf_fCY_fAC _ true false]
  simp

theorem xra_run (val : Byte) (w : Work δ) :
    xra val w = ((logic (w.a ^^^ val) false).1, { w with f := (logic (w.a ^^^ val) false).2 }) := by
  simp only [xra, bind_run, get_run, modify_run, flagZsp_run, pure_run, logic, BitVec.zero_or]

theorem ora_run (val : Byte) (w : Work δ) :
    ora val w = ((logic (w.a ||| val) false).1, { w with f := (logic (w.a ||| val) false).2 }) := by
  simp only [ora, bind_run, get_run, modify_run, flagZsp_run, pure_run, logic, BitVec.zero_or]

theorem inr_run (val : Byte) (w : Work δ) :
    inr val w = ((addWith coreAux val 1#8 false).1,
      { w with
        f := flagsOf (addWith coreAux val 1#8 false).1
          (hasAC (addWith coreAux val 1#8 false).2) (hasCY w.f) }) := by
  have hr : (addWith coreAux val 1#8 false).1 = val + 1#8 := by
    simp [addWith, BitVec.ofNat_add]
  have hac : 0x00#8 = val + 1#8 &&& 0x0f#8
      ↔ hasAC (addWith coreAux val 1#8 false).2 = true := by
    rw [addWith, hasAC_flagsOf, ← BitVec.toNat_inj, toNat_and_0f, BitVec.toNat_add]
    simp only [coreAux, nibbleCarry, decide_eq_true_eq, BitVec.toNat_ofNat, Bool.toNat_false]
    omega
  rw [hr]
  simp only [inr, bind_run, modify_run, orF_run hac, flagZsp_run, pure_run, and_fCY]
  rw [flagsOf_fCY_fAC (val + 1#8) (hasAC _)]

theorem dcr_run (val : Byte) (w : Work δ) :
    dcr val w = ((subWith coreAux val 1#8 false).1,
      { w with
        f := flagsOf (subWith coreAux val 1#8 false).1
          (hasAC (subWith coreAux val 1#8 false).2) (hasCY w.f) }) := by
  have hr : (subWith coreAux val 1#8 false).1 = val - 1#8 := by
    rw [subWith, ofInt_sub val 1#8 0#8 false rfl, BitVec.sub_zero]
  have hac : 0x0f#8 = val - 1#8 &&& 0x0f#8
      ↔ hasAC (subWith coreAux val 1#8 false).2 = true := by
    rw [subWith, hasAC_flagsOf, ← BitVec.toNat_inj, toNat_and_0f, BitVec.toNat_sub]
    simp only [coreAux, decide_eq_true_eq, BitVec.toNat_ofNat, Bool.toNat_false]
    omega
  rw [hr]
  simp only [dcr, bind_run, modify_run, orF_run hac, flagZsp_run, pure_run, and_fCY]
  rw [flagsOf_fCY_fAC (val - 1#8) (hasAC _)]

theorem dad_run (val : Word) (w : Work δ) :
    dad val w = ((),
      { w with
        f := setCY w.f (65536 ≤ w.hl.toNat + val.toNat)
        h := hiByte (BitVec.ofNat 16 (w.hl.toNat + val.toNat))
        l := loByte (BitVec.ofNat 16 (w.hl.toNat + val.toNat)) }) := by
  have hr : BitVec.ofNat 16 (w.hl.toNat + val.toNat) = w.hl + val := by
    simp [BitVec.ofNat_add]
  have hcy : w.hl + val < w.hl ↔ decide (65536 ≤ w.hl.toNat + val.toNat) = true := by
    simp only [BitVec.lt_def, BitVec.toNat_add, decide_eq_true_eq]
    omega
  rw [hr]
  exact congrArg
    (fun x : PUnit × Work δ =>
      ((), { x.2 with h := hiByte (w.hl + val), l := loByte (w.hl + val) }))
    (putF_run hcy w)

/-! ## The arms of the switch -/

/-- The arm for `i` ends in `break` and has the effect of `i`. -/
def ArmOk (ports : Ports δ) (i : Instr) : Prop :=
  ∃ arm : CpuM δ Unit, switch ports (encode i) = brk arm ∧
    ∀ w, (arm w).2.arch = exec coreAux ports i w.arch

theorem clear_iff (f : Byte) {m : Byte} {i : Nat} (hm : m = BitVec.twoPow 8 i) (hne : m ≠ 0#8) :
    f &&& m = 0#8 ↔ (!f.getLsbD i) = true := by
  rw [and_bit_eq_zero f hm hne, Bool.not_eq_true']

/-- The flag tests of the conditional arms. -/
def test : Cond → Byte → Prop
  | .nz, f => f &&& fZ = 0#8
  | .z, f => f &&& fZ ≠ 0#8
  | .nc, f => f &&& fCY = 0#8
  | .c, f => f &&& fCY ≠ 0#8
  | .po, f => f &&& fP = 0#8
  | .pe, f => f &&& fP ≠ 0#8
  | .p, f => f &&& fS = 0#8
  | .m, f => f &&& fS ≠ 0#8

instance : ∀ (cc : Cond) (f : Byte), Decidable (test cc f)
  | .nz, f => inferInstanceAs (Decidable (f &&& fZ = 0#8))
  | .z, f => inferInstanceAs (Decidable (f &&& fZ ≠ 0#8))
  | .nc, f => inferInstanceAs (Decidable (f &&& fCY = 0#8))
  | .c, f => inferInstanceAs (Decidable (f &&& fCY ≠ 0#8))
  | .po, f => inferInstanceAs (Decidable (f &&& fP = 0#8))
  | .pe, f => inferInstanceAs (Decidable (f &&& fP ≠ 0#8))
  | .p, f => inferInstanceAs (Decidable (f &&& fS = 0#8))
  | .m, f => inferInstanceAs (Decidable (f &&& fS ≠ 0#8))

theorem test_iff (cc : Cond) (f : Byte) : test cc f ↔ cc.holds f = true := by
  cases cc with
  | nz => exact clear_iff f (i := 6) rfl (by decide)
  | z => exact and_bit_ne_zero f (i := 6) rfl (by decide)
  | nc => exact clear_iff f (i := 0) rfl (by decide)
  | c => exact and_bit_ne_zero f (i := 0) rfl (by decide)
  | po => exact clear_iff f (i := 2) rfl (by decide)
  | pe => exact and_bit_ne_zero f (i := 2) rfl (by decide)
  | p => exact clear_iff f (i := 7) rfl (by decide)
  | m => exact and_bit_ne_zero f (i := 7) rfl (by decide)

theorem skip2 (w : Work δ) :
    ({ w with pc := w.pc + 2 } : Work δ).arch = w.arch.next.next := by
  have h : w.pc + 2 = w.pc + 1 + 1 := by rw [BitVec.add_assoc]; rfl
  rw [h]
  rfl

variable (ports : Ports δ)

theorem exec_rot (op : RotOp) (s : State δ) :
    exec coreAux ports (.rot op) s
      = { s with
          a := (rotate op s.a (hasCY s.f)).1
          f := setCY s.f (rotate op s.a (hasCY s.f)).2 } :=
  rfl

theorem mov_arm (dst src : Reg) (h : ¬(dst = .m ∧ src = .m)) : ArmOk ports (.mov dst src) := by
  cases dst <;> cases src <;>
    first
      | exact absurd ⟨rfl, rfl⟩ h
      | exact ⟨_, rfl, fun _ => rfl⟩

theorem mvi_arm (dst : Reg) : ArmOk ports (.mvi dst) := by
  cases dst <;> exact ⟨_, rfl, fun _ => rfl⟩

theorem lxi_arm (rp : Pair) : ArmOk ports (.lxi rp) := by
  cases rp <;> exact ⟨_, rfl, fun _ => rfl⟩

theorem inx_arm (rp : Pair) : ArmOk ports (.inx rp) := by
  cases rp with
  | sp => exact ⟨_, rfl, fun w => by rw [exec, State.setPair, word_hiByte_loByte]; rfl⟩
  | _ => exact ⟨_, rfl, fun _ => rfl⟩

theorem dcx_arm (rp : Pair) : ArmOk ports (.dcx rp) := by
  cases rp with
  | sp => exact ⟨_, rfl, fun w => by rw [exec, State.setPair, word_hiByte_loByte]; rfl⟩
  | _ => exact ⟨_, rfl, fun _ => rfl⟩

theorem dad_arm (rp : Pair) : ArmOk ports (.dad rp) := by
  cases rp <;> refine ⟨_, rfl, fun w => ?_⟩ <;> simp only [bind_run, get_run, dad_run] <;> rfl

theorem ldax_arm (rp : IndexPair) : ArmOk ports (.ldax rp) := by
  cases rp <;> exact ⟨_, rfl, fun _ => rfl⟩

theorem stax_arm (rp : IndexPair) : ArmOk ports (.stax rp) := by
  cases rp <;> exact ⟨_, rfl, fun _ => rfl⟩

theorem inr_arm (r : Reg) : ArmOk ports (.inr r) := by
  cases r <;> refine ⟨_, rfl, fun w => ?_⟩ <;>
    simp only [bind_run, get_run, load8_run, inr_run] <;> rfl

theorem dcr_arm (r : Reg) : ArmOk ports (.dcr r) := by
  cases r <;> refine ⟨_, rfl, fun w => ?_⟩ <;>
    simp only [bind_run, get_run, load8_run, dcr_run] <;> rfl

theorem rot_arm (op : RotOp) : ArmOk ports (.rot op) := by
  have hmsb (a : Byte) : (if a.msb then flagCY else 0#8) = a >>> 7 := by
    cases h : a.msb with
    | false => exact eq_of_bits (by simp_all [BitVec.msb_eq_getLsbD_last])
    | true => exact eq_of_bits (by simp_all [flagCY, BitVec.msb_eq_getLsbD_last])
  have hlsb (a : Byte) : (if a.getLsbD 0 then flagCY else 0#8) = a &&& 0x01#8 :=
    (and_flagCY a).symm
  have hrlc (a : Byte) : a.rotateLeft 1 = a <<< 1 ||| a >>> 7 := rfl
  have hrrc (a : Byte) : a.rotateRight 1 = (a &&& 0x01#8) <<< 7 ||| a >>> 1 :=
    eq_of_bits (by simp)
  have hral (c : Bool) (a : Byte) : ((BitVec.ofBool c ++ a).rotateLeft 1).setWidth 8
      = a <<< 1 ||| (if c then fCY else 0#8) := ral_eq c a
  have hrar (c : Bool) (a : Byte) : ((BitVec.ofBool c ++ a).rotateRight 1).setWidth 8
      = (if c then fCY else 0#8) <<< 7 ||| a >>> 1 := by
    rw [rar_eq]
    cases c <;> rfl
  cases op with
  | rlc => exact ⟨_, rfl, fun w => by rw [exec_rot, rotate, setCY, hrlc, hmsb]; rfl⟩
  | rrc => exact ⟨_, rfl, fun w => by rw [exec_rot, rotate, setCY, hrrc, hlsb]; rfl⟩
  | ral => exact ⟨_, rfl, fun w => by rw [exec_rot, rotate, setCY, hral, hmsb, ← and_fCY]; rfl⟩
  | rar => exact ⟨_, rfl, fun w => by rw [exec_rot, rotate, setCY, hrar, hlsb, ← and_fCY]; rfl⟩

/-- An ALU helper that computes `op`, in an arm that feeds it the
register operand and stores what it returns. -/
theorem alu_arm_of {op : AluOp} {helper : Byte → CpuM δ Byte}
    (hrun : ∀ val w, helper val w = ((alu coreAux op w.a val (hasCY w.f)).1,
      { w with f := (alu coreAux op w.a val (hasCY w.f)).2 }))
    {src : Reg}
    (harm : switch ports (encode (.alu op src)) = brk do
      let v ← helper ((← get).arch.get src)
      modify fun w => { w with a := v }) : ArmOk ports (.alu op src) := by
  refine ⟨_, harm, fun w => ?_⟩
  simp only [bind_run, get_run, modify_run, hrun]
  rfl

theorem alu_arm (op : AluOp) (src : Reg) : ArmOk ports (.alu op src) := by
  cases op with
  | add => exact alu_arm_of ports add_run (by cases src <;> rfl)
  | adc => exact alu_arm_of ports adc_run (by cases src <;> rfl)
  | sub => exact alu_arm_of ports sub_run (by cases src <;> rfl)
  | sbb => exact alu_arm_of ports sbb_run (by cases src <;> rfl)
  | ana => exact alu_arm_of ports ana_run (by cases src <;> rfl)
  | xra => exact alu_arm_of ports xra_run (by cases src <;> rfl)
  | ora => exact alu_arm_of ports ora_run (by cases src <;> rfl)
  | cmp =>
      cases src <;> refine ⟨_, rfl, fun w => ?_⟩ <;>
        simp only [bind_run, get_run, load8_run, discard_run, sub_run] <;> rfl

theorem aluImm_arm (op : AluOp) : ArmOk ports (.aluImm op) := by
  cases op <;> refine ⟨_, rfl, fun w => ?_⟩ <;>
    simp only [loadPc, bind_run, get_run, load8_run, modify_run, pure_run, discard_run, add_run,
      adc_run, sub_run, sbb_run, ana_run, xra_run, ora_run] <;> rfl

theorem stc_arm : ArmOk ports .stc :=
  ⟨_, rfl, fun w => by rw [exec, setCY_true]; rfl⟩

theorem cmc_arm : ArmOk ports .cmc :=
  ⟨_, rfl, fun w => by rw [exec, setCY_not]; rfl⟩

theorem push_arm (rp : StackPair) : ArmOk ports (.push rp) := by
  cases rp <;> exact ⟨_, rfl, fun _ => rfl⟩

theorem pop_arm (rp : StackPair) : ArmOk ports (.pop rp) := by
  cases rp <;> exact ⟨_, rfl, fun _ => rfl⟩

/-- An arm that branches on a flag test. -/
theorem branch_arm {i : Instr} (cc : Cond) (x y : CpuM δ Unit)
    (hswitch : switch ports (encode i) = brk (do if test cc (← get).f then x else y))
    (hexec : ∀ w : Work δ, exec coreAux ports i w.arch
      = if cc.holds w.f then (x w).2.arch else (y w).2.arch) : ArmOk ports i := by
  refine ⟨_, hswitch, fun w => ?_⟩
  rw [get_bind_run, ite_run, hexec]
  by_cases htest : test cc w.f
  · rw [if_pos htest, if_pos ((test_iff cc w.f).mp htest)]
  · rw [if_neg htest, if_neg (mt (test_iff cc w.f).mpr htest)]

/-- What a jump or call not taken does. -/
def skip : CpuM δ Unit := modify fun w => { w with pc := w.pc + 2 }

theorem retIf_arm (cc : Cond) : ArmOk ports (.retIf cc) :=
  branch_arm ports cc ret (pure ()) (by cases cc <;> rfl) fun _ => rfl

theorem jmpIf_arm (cc : Cond) : ArmOk ports (.jmpIf cc) :=
  branch_arm ports cc jmp skip (by cases cc <;> rfl) fun w => by
    rw [exec, ← skip2]
    rfl

theorem callIf_arm (cc : Cond) : ArmOk ports (.callIf cc) :=
  branch_arm ports cc call skip (by cases cc <;> rfl) fun w => by
    rw [exec, ← skip2]
    rfl

theorem rst_arm (n : Fin 8) : ArmOk ports (.rst n) := by
  fin_cases n <;> exact ⟨_, rfl, fun _ => rfl⟩

theorem xthl_arm : ArmOk ports .xthl := by
  refine ⟨_, rfl, fun w => ?_⟩
  have h : Function.update w.mem w.sp w.l (w.sp + 1) = w.mem (w.sp + 1) :=
    Function.update_of_ne (add_one_ne w.sp) _ _
  have harm : exec coreAux ports .xthl w.arch
      = { (w.arch.store w.sp w.l).store (w.sp + 1) w.h with
          l := w.mem w.sp, h := Function.update w.mem w.sp w.l (w.sp + 1) } := by
    rw [h]
    rfl
  rw [harm]
  rfl

theorem xchg_arm : ArmOk ports .xchg := by
  refine ⟨_, rfl, fun w => ?_⟩
  simp only [bind_run, get_run, modify_run, Work.hl, hiByte_word, loByte_word]
  rfl

/-! ## The switch and the step -/

/-- Every instruction but DAA that an opcode can decode to and that does
not stop the run has its arm. -/
theorem arm_ok {op : Byte} (hdaa : decode op ≠ .daa) (hgo : (decode op).stops = false) :
    ArmOk ports (decode op) := by
  have hmm := decode_ne_mov_m_m op
  cases hi : decode op with
  | hlt => simp [hi, Instr.stops] at hgo
  | undefined => simp [hi, Instr.stops] at hgo
  | daa => exact absurd hi hdaa
  | mov dst src =>
      refine mov_arm ports dst src fun h => hmm ?_
      rw [hi, h.1, h.2]
  | mvi dst => exact mvi_arm ports dst
  | lxi rp => exact lxi_arm ports rp
  | inx rp => exact inx_arm ports rp
  | dcx rp => exact dcx_arm ports rp
  | dad rp => exact dad_arm ports rp
  | ldax rp => exact ldax_arm ports rp
  | stax rp => exact stax_arm ports rp
  | inr r => exact inr_arm ports r
  | dcr r => exact dcr_arm ports r
  | rot o => exact rot_arm ports o
  | alu o src => exact alu_arm ports o src
  | aluImm o => exact aluImm_arm ports o
  | stc => exact stc_arm ports
  | cmc => exact cmc_arm ports
  | push rp => exact push_arm ports rp
  | pop rp => exact pop_arm ports rp
  | retIf cc => exact retIf_arm ports cc
  | jmpIf cc => exact jmpIf_arm ports cc
  | callIf cc => exact callIf_arm ports cc
  | rst n => exact rst_arm ports n
  | xthl => exact xthl_arm ports
  | xchg => exact xchg_arm ports
  | nop | lda | sta | lhld | shld | cma | ret | jmp | call | pchl | sphl | input | output | ei
  | di => exact ⟨_, rfl, fun _ => rfl⟩

/-- The undefined opcodes share the `default` arm. -/
theorem switch_undefined {op : Byte} (h : op ∈ undefinedOpcodes) :
    switch ports op = return -256 + op.toNat := by
  simp only [undefinedOpcodes, List.mem_cons, List.not_mem_nil, or_false] at h
  rcases h with rfl | rfl | rfl | rfl | rfl | rfl | rfl | rfl | rfl | rfl | rfl | rfl <;> rfl

/-- HLT and the undefined opcodes leave the work area alone and return a
non-zero code. -/
theorem switch_stops {op : Byte} (h : (decode op).stops = true) (w : Work δ) :
    (switch ports op w).2 = w ∧ (switch ports op w).1 ≠ 0 := by
  cases hi : decode op with
  | hlt =>
      obtain rfl := (decode_hlt_iff op).mp hi
      exact ⟨rfl, Int.one_ne_zero⟩
  | undefined =>
      rw [switch_undefined ports ((decode_undefined_iff op).mp hi), pure_run]
      have := op.isLt
      exact ⟨rfl, by simp only; omega⟩
  | _ => simp [hi, Instr.stops] at h

/-- The switch against the instruction set, for every opcode but DAA's. -/
theorem switch_refines {op : Byte} (hdaa : decode op ≠ .daa) (w : Work δ) :
    (switch ports op w).2.arch = exec coreAux ports (decode op) w.arch
      ∧ ((switch ports op w).1 ≠ 0 ↔ (decode op).stops = true) := by
  cases hstop : (decode op).stops with
  | true =>
      obtain ⟨hw, hcode⟩ := switch_stops ports hstop w
      refine ⟨?_, fun _ => rfl, fun _ => hcode⟩
      rw [hw]
      cases hi : decode op <;> first | rfl | simp [hi, Instr.stops] at hstop
  | false =>
      obtain ⟨arm, harm, hexec⟩ := arm_ok ports hdaa hstop
      have hop : encode (decode op) = op := by
        refine encode_decode op fun h => ?_
        simp [h, Instr.stops] at hstop
      rw [hop] at harm
      rw [harm]
      exact ⟨hexec w, by simp [brk, bind_run, pure_run]⟩

/-- One step of the C core is one step of the instruction set, for every
work area, memory and opcode but DAA's. -/
theorem step_refines (w : Work δ) (hdaa : decode (w.mem w.pc) ≠ .daa) :
    (step ports w).2.arch = (Isa.step coreAux ports w.arch).1
      ∧ ((step ports w).1 ≠ 0 ↔ (Isa.step coreAux ports w.arch).2 = true) :=
  switch_refines ports hdaa { w with pc := w.pc + 1, op := w.mem w.pc }

end Cpu8080

end CpMega88
