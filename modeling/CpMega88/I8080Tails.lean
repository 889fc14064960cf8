import CpMega88.I8080
import CpMega88.IsaArith

/-!
# Assembly routines against 8080 states

`abs` reads an 8080 state off the AVR registers and the bus. A handler
`Reaches` an 8080 state when it leaves to where it should, in an AVR
state that stands for it, with the zero register still zero.

Each shared tail of the assembly core gets one such theorem, whatever
the temporaries and the status register hold on entry. The flags come
out of `sbrIf` and `statusToF`, which read the AVR's own status; the
parity out of a loop over the bits.
-/

namespace CpMega88

open Bytes Avr Runs

namespace I8080

variable {δ : Type}

/-! ## The 8080 state behind an AVR state -/

def abs (s : Avr.State (Bus δ)) : Isa.State δ where
  a := s.r regA
  f := s.r regF
  b := s.r regB
  c := s.r regC
  d := s.r regD
  e := s.r regE
  h := s.r regH
  l := s.r regL
  pc := s.pair regPcH regPcL
  sp := s.pair regSpH regSpL
  mem := s.bus.mem
  dev := s.bus.dev
  calls := s.bus.calls

@[simp] theorem abs_setPc (s : Avr.State (Bus δ)) (w : Word) :
    abs (s.setPair regPcH regPcL w) = { abs s with pc := w } :=
  congrArg (fun pc => { abs s with pc := pc }) (word_hiByte_loByte w)

@[simp] theorem abs_setSp (s : Avr.State (Bus δ)) (w : Word) :
    abs (s.setPair regSpH regSpL w) = { abs s with sp := w } :=
  congrArg (fun sp => { abs s with sp := sp }) (word_hiByte_loByte w)

@[simp] theorem abs_setSreg (s : Avr.State (Bus δ)) (f : Sreg) :
    abs (s.setSreg f) = abs s := rfl

@[simp] theorem abs_set_a (s : Avr.State (Bus δ)) (v : Byte) :
    abs (s.set regA v) = { abs s with a := v } := rfl

@[simp] theorem abs_set_f (s : Avr.State (Bus δ)) (v : Byte) :
    abs (s.set regF v) = { abs s with f := v } := rfl

@[simp] theorem abs_set_b (s : Avr.State (Bus δ)) (v : Byte) :
    abs (s.set regB v) = { abs s with b := v } := rfl

@[simp] theorem abs_set_c (s : Avr.State (Bus δ)) (v : Byte) :
    abs (s.set regC v) = { abs s with c := v } := rfl

@[simp] theorem abs_set_d (s : Avr.State (Bus δ)) (v : Byte) :
    abs (s.set regD v) = { abs s with d := v } := rfl

@[simp] theorem abs_set_e (s : Avr.State (Bus δ)) (v : Byte) :
    abs (s.set regE v) = { abs s with e := v } := rfl

@[simp] theorem abs_set_h (s : Avr.State (Bus δ)) (v : Byte) :
    abs (s.set regH v) = { abs s with h := v } := rfl

@[simp] theorem abs_set_l (s : Avr.State (Bus δ)) (v : Byte) :
    abs (s.set regL v) = { abs s with l := v } := rfl

@[simp] theorem abs_set_memH (s : Avr.State (Bus δ)) (v : Byte) :
    abs (s.set regMemH v) = abs s := rfl

@[simp] theorem abs_set_memL (s : Avr.State (Bus δ)) (v : Byte) :
    abs (s.set regMemL v) = abs s := rfl

@[simp] theorem abs_set_memR (s : Avr.State (Bus δ)) (v : Byte) :
    abs (s.set regMemR v) = abs s := rfl

@[simp] theorem abs_set_tmp1 (s : Avr.State (Bus δ)) (v : Byte) :
    abs (s.set regTmp1 v) = abs s := rfl

@[simp] theorem abs_set_tmp2 (s : Avr.State (Bus δ)) (v : Byte) :
    abs (s.set regTmp2 v) = abs s := rfl

/-- `x` leaves to `e` in a state standing for `t`. -/
structure Reaches (x : AsmM δ Exit) (s : Avr.State (Bus δ)) (e : Exit) (t : Isa.State δ) :
    Prop where
  exit : (x s).1 = e
  stands : abs (x s).2 = t
  zero : (x s).2.r r1 = 0#8

/-- What follows a routine starts where the routine ended. -/
theorem Reaches.bind {α : Type} {x : AsmM δ α} {k : α → AsmM δ Exit} {s s' : Avr.State (Bus δ)}
    {v : α} {e : Exit} {t : Isa.State δ} (hx : x s = (v, s')) (h : Reaches (k v) s' e t) :
    Reaches (x >>= k) s e t :=
  ⟨by rw [bind_run, hx]; exact h.exit, by rw [bind_run, hx]; exact h.stands,
    by rw [bind_run, hx]; exact h.zero⟩

theorem Reaches.branch {x : AsmM δ Bool} {y z : AsmM δ Exit} {s s' : Avr.State (Bus δ)} {b : Bool}
    {e : Exit} {t : Isa.State δ} (hx : x s = (b, s')) (hy : b = true → Reaches y s' e t)
    (hz : b = false → Reaches z s' e t) : Reaches (do if ← x then y else z) s e t := by
  refine .bind hx ?_
  cases b with
  | true => exact hy rfl
  | false => exact hz rfl

theorem Reaches.of_eq {x : AsmM δ Exit} {s : Avr.State (Bus δ)} {e : Exit} {t t' : Isa.State δ}
    (h : Reaches x s e t) (ht : t = t') : Reaches x s e t' :=
  ht ▸ h

theorem fetchNext_reaches (s : Avr.State (Bus δ)) (h : s.r r1 = 0#8) :
    Reaches fetchNext s .fetchNext (abs s) :=
  ⟨rfl, rfl, h⟩

/-! ## Flag tests -/

/-- `f |= m` where `b` holds. -/
def orFlag (s : Avr.State (Bus δ)) (b : Bool) (m : Byte) : Avr.State (Bus δ) :=
  s.set regF (s.r regF ||| if b then m else 0#8)

theorem orFlag_false (s : Avr.State (Bus δ)) (m : Byte) : orFlag s false m = s := by
  rw [orFlag, if_neg Bool.false_ne_true, BitVec.or_zero, Avr.State.set_self]

/-- The status SBR leaves is never used. -/
theorem sbrIf_run (flag : AsmM δ Bool) (m : Byte) (s : Avr.State (Bus δ)) (b : Bool)
    (hflag : flag s = (b, s)) :
    ∃ f, sbrIf flag m s = ((), (orFlag s b m).setSreg f) := by
  cases b with
  | true => exact ⟨_, by simp only [sbrIf, bind_run, hflag]; rfl⟩
  | false =>
      refine ⟨s.sreg, ?_⟩
      simp only [sbrIf, bind_run, hflag, orFlag_false]
      rfl

theorem sbrIfThenOut_run (flag : AsmM δ Bool) (m : Byte) {tmp : Fin 32} (htmp : tmp ≠ regF)
    (s : Avr.State (Bus δ)) {b : Bool} (hflag : flag s = (b, s))
    (hs : s.r tmp = s.sreg.toByte) :
    sbrIfThenOut flag m tmp s = ((), orFlag s b m) := by
  cases b with
  | true =>
      have hout : (sbr regF m s).2.r tmp = s.sreg.toByte :=
        (Avr.State.set_r_of_ne s htmp _).trans hs
      simp only [sbrIfThenOut, bind_run, hflag, if_true, outSreg, modify_run, hout,
        Sreg.ofByte_toByte]
      rfl
  | false =>
      simp only [sbrIfThenOut, bind_run, hflag, orFlag_false]
      rfl

/-! ## Parity -/

/-- `parCount` on values, with `z` for the zero register. -/
def countBits (z : Byte) : Nat → Byte → Byte → Byte
  | 0, _, acc => acc
  | n + 1, x, acc => countBits z n (x >>> 1) (sumByte acc z (x.getLsbD 0))

theorem countBits_parity : ∀ x : Byte,
    (countBits 0#8 8 x 0#8 &&& 1#8 == 0#8) = evenParity x := by
  decide +kernel

theorem parSet_reaches (s : Avr.State (Bus δ)) (h : s.r r1 = 0#8) :
    Reaches parSet s .fetchNext
      { abs s with f := s.r regF ||| if evenParity (s.r regTmp1) then fP else 0#8 } := by
  have hz : (andi regTmp2 1#8 (parCount s).2).2.sreg.z
      = (countBits (s.r r1) 8 (s.r regTmp1) (s.r r1) &&& 1#8 == 0#8) := rfl
  rw [h, countBits_parity] at hz
  obtain ⟨f, hf⟩ := sbrIf_run flagZ fP (andi regTmp2 1#8 (parCount s).2).2 _ rfl
  rw [hz] at hf
  exact .bind rfl (.bind rfl (.bind hf (fetchNext_reaches _ h)))

/-! ## The tails of INR and DCR -/

theorem diffByte_zero (x : Byte) : diffByte x 0#8 false = x := by
  simp [diffByte]

theorem and_fS (x : Byte) : x &&& fS = if x.msb then fS else 0#8 := by
  rw [BitVec.msb_eq_getLsbD_last]
  exact and_bit x rfl

theorem flagsOf_zsp (x : Byte) : Isa.flagsOf x false false
    = (if x == 0#8 then fZ else 0#8) ||| (x &&& fS) ||| (if evenParity x then fP else 0#8) := by
  rw [and_fS]
  unfold Isa.flagsOf Isa.packFlags
  cases x.msb <;> cases x == 0#8 <;> cases evenParity x <;> rfl

theorem flagZsp_reaches (s : Avr.State (Bus δ)) (h : s.r r1 = 0#8) :
    Reaches flagZsp s .fetchNext
      { abs s with f := s.r regF ||| Isa.flagsOf (s.r regTmp1) false false } := by
  have hz : (cp regTmp1 r1 s).2.sreg.z = (diffByte (s.r regTmp1) (s.r r1) false == 0#8) := rfl
  rw [h, diffByte_zero] at hz
  obtain ⟨f, hf⟩ := sbrIf_run flagZ fZ (cp regTmp1 r1 s).2 _ rfl
  rw [hz] at hf
  refine .bind rfl (.bind hf (.bind rfl (.bind rfl (.bind rfl (.of_eq (parSet_reaches _ h) ?_)))))
  rw [flagsOf_zsp, ← BitVec.or_assoc, ← BitVec.or_assoc]
  rfl

/-- The flags of INR and DCR: the old carry and a test for AC. -/
theorem incDecFlags (f r : Byte) (ac : Bool) :
    (f &&& fCY ||| if ac then fAC else 0#8) ||| Isa.flagsOf r false false
      = Isa.flagsOf r ac (Isa.hasCY f) := by
  rw [Isa.flagsOf_carries r ac, ← Isa.and_flagCY]
  rfl

theorem inrComp_reaches (s : Avr.State (Bus δ)) (h : s.r r1 = 0#8) :
    Reaches inrComp s .fetchNext
      { abs s with
        f := Isa.flagsOf (s.r regTmp1) (s.r regTmp1 &&& 0x0f#8 == 0#8)
          (Isa.hasCY (s.r regF)) } := by
  obtain ⟨f, hf⟩ := sbrIf_run flagZ fAC
    (andi regTmp2 0x0f#8 (mov regTmp2 regTmp1 (andi regF fCY s).2).2).2 _ rfl
  refine .bind rfl (.bind rfl (.bind rfl (.bind hf (.of_eq (flagZsp_reaches _ h) ?_))))
  rw [← incDecFlags]
  rfl

theorem dcrComp_reaches (s : Avr.State (Bus δ)) (h : s.r r1 = 0#8) :
    Reaches dcrComp s .fetchNext
      { abs s with
        f := Isa.flagsOf (s.r regTmp1) (diffByte (s.r regTmp1 &&& 0x0f#8) 0x0f#8 false == 0#8)
          (Isa.hasCY (s.r regF)) } := by
  obtain ⟨f, hf⟩ := sbrIf_run flagZ fAC
    (cpi regTmp2 0x0f#8 (andi regTmp2 0x0f#8 (mov regTmp2 regTmp1
      (andi regF fCY s).2).2).2).2 _ rfl
  refine .bind rfl (.bind rfl (.bind rfl (.bind rfl (.bind hf
    (.of_eq (flagZsp_reaches _ h) ?_)))))
  rw [← incDecFlags]
  rfl

/-! ## The tails of the arithmetic operations -/

theorem packFlags_or : ∀ n z h c : Bool,
    (((0#8 ||| if c then fCY else 0#8) ||| if h then fAC else 0#8) ||| if z then fZ else 0#8)
        ||| (if n then fS else 0#8)
      = Isa.packFlags n z h false c := by
  decide

theorem packFlags_parity : ∀ n z h p c : Bool,
    Isa.packFlags n z h false c ||| (if p then fP else 0#8) = Isa.packFlags n z h p c := by
  decide

theorem statusToF_run (s : Avr.State (Bus δ)) {tmp : Fin 32} (htmp : tmp ≠ regF) :
    ∃ f, statusToF tmp s = ((), ((s.set tmp s.sreg.toByte).set regF
      (Isa.packFlags s.sreg.n s.sreg.z s.sreg.h false s.sreg.c)).setSreg f) := by
  have hs : ∀ v, ((s.set tmp s.sreg.toByte).set regF v).r tmp = s.sreg.toByte := fun v => by
    rw [Avr.State.set_r_of_ne _ htmp, Avr.State.set_r_self]
  have horFlag : ∀ (v m : Byte) (b : Bool), orFlag ((s.set tmp s.sreg.toByte).set regF v) b m
      = (s.set tmp s.sreg.toByte).set regF (v ||| if b then m else 0#8) := fun v m b => by
    rw [orFlag, Avr.State.set_set, Avr.State.set_r_self]
  have step : ∀ (flag : AsmM δ Bool) (m v : Byte) (b : Bool),
      flag ((s.set tmp s.sreg.toByte).set regF v) = (b, (s.set tmp s.sreg.toByte).set regF v) →
      sbrIfThenOut flag m tmp ((s.set tmp s.sreg.toByte).set regF v)
        = ((), (s.set tmp s.sreg.toByte).set regF (v ||| if b then m else 0#8)) :=
    fun flag m v b hflag => by
      rw [sbrIfThenOut_run flag m htmp _ hflag (hs v), horFlag]
  obtain ⟨f, hf⟩ := sbrIf_run flagN fS ((s.set tmp s.sreg.toByte).set regF
    (((0#8 ||| if s.sreg.c then fCY else 0#8) ||| if s.sreg.h then fAC else 0#8)
      ||| if s.sreg.z then fZ else 0#8)) s.sreg.n rfl
  refine ⟨f, ?_⟩
  rw [horFlag, packFlags_or] at hf
  rw [← hf]
  simp only [statusToF, inSreg, ldi, bind_run, modify_run]
  rw [step flagC fCY 0#8 s.sreg.c rfl, step flagH fAC _ s.sreg.h rfl, step flagZ fZ _ s.sreg.z rfl]

theorem addComp_reaches (s : Avr.State (Bus δ)) (h : s.r r1 = 0#8) :
    Reaches addComp s .fetchNext
      { abs s with
        f := Isa.packFlags s.sreg.n s.sreg.z s.sreg.h (evenParity (s.r regA)) s.sreg.c } := by
  obtain ⟨f, hf⟩ := statusToF_run s (by decide : regTmp1 ≠ regF)
  exact .bind hf (.bind rfl (.of_eq (parSet_reaches _ h)
    (congrArg (fun f => { abs s with f := f }) (packFlags_parity _ _ _ _ _))))

theorem cmpComp_reaches (s : Avr.State (Bus δ)) (h : s.r r1 = 0#8) :
    Reaches cmpComp s .fetchNext
      { abs s with
        f := Isa.packFlags s.sreg.n s.sreg.z s.sreg.h (evenParity (s.r regTmp1)) s.sreg.c } := by
  obtain ⟨f, hf⟩ := statusToF_run s (by decide : regTmp2 ≠ regF)
  exact .bind hf (.of_eq (parSet_reaches _ h)
    (congrArg (fun f => { abs s with f := f }) (packFlags_parity _ _ _ _ _)))

theorem carryFrom_run (s : Avr.State (Bus δ)) (reg : Fin 32) (b : Nat) :
    carryFrom reg b s = ((), s.setSreg { s.sreg with c := (s.r reg).getLsbD b }) := by
  have hbit : bit reg b (clc s).2 = ((s.r reg).getLsbD b, (clc s).2) := rfl
  rw [carryFrom, bind_run, branch_run hbit]
  cases (s.r reg).getLsbD b <;> rfl

/-- `adc_comp`: the addition with the carry taken from F. -/
theorem adcComp_reaches (s : Avr.State (Bus δ)) (h : s.r r1 = 0#8) :
    Reaches adcComp s .fetchNext
      { abs s with
        a := (Isa.addWith Isa.coreAux (s.r regA) (s.r regTmp1) (Isa.hasCY (s.r regF))).1
        f := (Isa.addWith Isa.coreAux (s.r regA) (s.r regTmp1) (Isa.hasCY (s.r regF))).2 } :=
  .bind (carryFrom_run s regF bCY) (.bind rfl (.of_eq (addComp_reaches _ h) rfl))

/-- The status after a subtraction, against the flags of the instruction
set. -/
theorem packFlags_sub (a v : Byte) (c : Bool) :
    Isa.packFlags (diffByte a v c).msb (diffByte a v c == 0#8)
        (decide (a.toNat % 16 < v.toNat % 16 + c.toNat)) (evenParity (diffByte a v c))
        (decide (a.toNat < v.toNat + c.toNat))
      = (Isa.subWith Isa.coreAux a v c).2 := by
  have hlt : (a.toNat : Int) - v.toNat - c.toNat < 0 ↔ a.toNat < v.toNat + c.toNat := by omega
  simp only [Isa.subWith, hlt]
  rfl

/-- `sbb_comp`: SBC only ever clears Z, so Z is set before it. -/
theorem sbbComp_reaches (s : Avr.State (Bus δ)) (h : s.r r1 = 0#8) :
    Reaches sbbComp s .fetchNext
      { abs s with
        a := (Isa.subWith Isa.coreAux (s.r regA) (s.r regTmp1) (Isa.hasCY (s.r regF))).1
        f := (Isa.subWith Isa.coreAux (s.r regA) (s.r regTmp1) (Isa.hasCY (s.r regF))).2 } := by
  refine .bind (carryFrom_run s regF bCY) (.bind rfl (.bind rfl
    (.of_eq (addComp_reaches _ h) ?_)))
  rw [← packFlags_sub]
  rfl

theorem flagsOf_logic (ac : Bool) (a : Byte) :
    ((if ac then fAC else 0#8) ||| (if a == 0#8 then fZ else 0#8) ||| (if a.msb then fS else 0#8))
        ||| (if evenParity a then fP else 0#8)
      = Isa.flagsOf a ac false := by
  unfold Isa.flagsOf Isa.packFlags
  cases a.msb <;> cases a == 0#8 <;> cases evenParity a <;> cases ac <;> rfl

/-- From the branch on N to the end of `logicComp`. -/
theorem signParity_reaches (s : Avr.State (Bus δ)) (h : s.r r1 = 0#8) :
    Reaches (do
        sbrIf flagN fS
        mov regTmp1 regA
        parSet) s .fetchNext
      { abs s with
        f := (s.r regF ||| if s.sreg.n then fS else 0#8)
          ||| if evenParity (s.r regA) then fP else 0#8 } := by
  obtain ⟨f, hf⟩ := sbrIf_run flagN fS s s.sreg.n rfl
  exact .bind hf (.bind rfl (parSet_reaches _ h))

/-- `ana_comp`, `xra_comp` and `ora_comp`, where Z and N are those of A:
the second compare, of a zero A with zero, leaves N as it was. -/
theorem logicComp_reaches (s : Avr.State (Bus δ)) (ac : Bool) (h : s.r r1 = 0#8)
    (hz : s.sreg.z = (s.r regA == 0#8)) (hn : s.sreg.n = (s.r regA).msb) :
    Reaches (logicComp (if ac then fAC else 0#8)) s .fetchNext
      { abs s with f := Isa.flagsOf (s.r regA) ac false } := by
  refine .bind rfl (.branch rfl (fun hb => ?_) fun hb => ?_)
  · have hA : (s.r regA == 0#8) = true := hz.symm.trans hb
    refine .bind rfl (.bind rfl (.of_eq (signParity_reaches _ h) ?_))
    rw [← flagsOf_logic, if_pos hA]
    have hcp : (diffByte (s.r regA) (s.r r1) false).msb = (s.r regA).msb := by
      rw [h, diffByte_zero]
    rw [← hcp]
    rfl
  · have hA : (s.r regA == 0#8) = false := hz.symm.trans hb
    refine .of_eq (signParity_reaches _ h) ?_
    rw [← flagsOf_logic, hA, ← hn, if_neg Bool.false_ne_true, BitVec.or_zero]
    rfl

/-! ## Registers and register pairs -/

/-- Where the operands live; an operand in memory passes through
`reg_mem_r`. -/
def reg : Isa.Reg → Fin 32
  | .b => regB
  | .c => regC
  | .d => regD
  | .e => regE
  | .h => regH
  | .l => regL
  | .m => regMemR
  | .a => regA

theorem get_abs (s : Avr.State (Bus δ)) {r : Isa.Reg} (hr : r ≠ .m) :
    (abs s).get r = s.r (reg r) := by
  cases r <;> first | rfl | exact absurd rfl hr

theorem abs_setReg (s : Avr.State (Bus δ)) {r : Isa.Reg} (hr : r ≠ .m) (v : Byte) :
    abs (s.set (reg r) v) = (abs s).set r v := by
  cases r <;> first | rfl | exact absurd rfl hr

theorem zero_setReg (s : Avr.State (Bus δ)) (r : Isa.Reg) (v : Byte) :
    (s.set (reg r) v).r r1 = s.r r1 := by
  cases r <;> rfl

def hiReg : Isa.Pair → Fin 32
  | .bc => regB
  | .de => regD
  | .hl => regH
  | .sp => regSpH

def loReg : Isa.Pair → Fin 32
  | .bc => regC
  | .de => regE
  | .hl => regL
  | .sp => regSpL

theorem hiReg_ne_loReg (rp rp' : Isa.Pair) : hiReg rp ≠ loReg rp' := by
  cases rp <;> cases rp' <;> decide

theorem r1_ne_loReg (rp : Isa.Pair) : r1 ≠ loReg rp := by
  cases rp <;> decide

theorem getPair_abs (s : Avr.State (Bus δ)) (rp : Isa.Pair) :
    (abs s).getPair rp = s.pair (hiReg rp) (loReg rp) := by
  cases rp <;> rfl

theorem abs_setPair (s : Avr.State (Bus δ)) (rp : Isa.Pair) (w : Word) :
    abs (s.setPair (hiReg rp) (loReg rp) w) = (abs s).setPair rp (hiByte w) (loByte w) := by
  cases rp <;> rfl

/-- A pair plus the small constant in `k`. -/
theorem addConst_run (s : Avr.State (Bus δ)) {hi lo k : Fin 32} (c : Byte) (hne : hi ≠ lo)
    (hlo : r1 ≠ lo) (h : s.r r1 = 0#8) (hk : s.r k = c) :
    ∃ f, adc hi r1 (add lo k s).2
      = ((), (s.setPair hi lo (s.pair hi lo + word 0#8 c)).setSreg f) := by
  obtain ⟨f, -, hf⟩ := add_adc_run s hne hlo
  refine ⟨f, hf.trans ?_⟩
  rw [show s.pair r1 k = word 0#8 c from congrArg₂ word h hk]

/-- A pair less the small constant in `k`. -/
theorem subConst_run (s : Avr.State (Bus δ)) {hi lo k : Fin 32} (c : Byte) (hne : hi ≠ lo)
    (hlo : r1 ≠ lo) (h : s.r r1 = 0#8) (hk : s.r k = c) :
    ∃ f, sbc hi r1 (sub lo k s).2
      = ((), (s.setPair hi lo (s.pair hi lo - word 0#8 c)).setSreg f) := by
  obtain ⟨f, hf⟩ := sub_sbc_run s hne hlo
  refine ⟨f, hf.trans ?_⟩
  rw [show s.pair r1 k = word 0#8 c from congrArg₂ word h hk]

/-- Only the registers in `l` may differ. -/
def KeepsBut (l : List (Fin 32)) (s s' : Avr.State (Bus δ)) : Prop :=
  ∀ i, i ∉ l → s'.r i = s.r i

theorem KeepsBut.refl (l : List (Fin 32)) (s : Avr.State (Bus δ)) : KeepsBut l s s :=
  fun _ _ => rfl

theorem KeepsBut.set {l : List (Fin 32)} {s s' : Avr.State (Bus δ)} (h : KeepsBut l s s')
    (d : Fin 32) (hd : d ∈ l) (v : Byte) : KeepsBut l s (s'.set d v) := fun i hi => by
  have hid : i ≠ d := fun hid => hi (hid.symm ▸ hd)
  exact (s'.set_r_of_ne hid v).trans (h i hi)

theorem KeepsBut.setSreg {l : List (Fin 32)} {s s' : Avr.State (Bus δ)} (h : KeepsBut l s s')
    (f : Sreg) : KeepsBut l s (s'.setSreg f) := h

theorem incSp_run (s : Avr.State (Bus δ)) (h : s.r r1 = 0#8) (hk : s.r regTmp2 = 1#8) :
    ∃ s', adc regSpH r1 (add regSpL regTmp2 s).2 = ((), s')
      ∧ abs s' = { abs s with sp := (abs s).sp + 1 } ∧ KeepsBut [regSpL, regSpH] s s' := by
  obtain ⟨f, hf⟩ := addConst_run s 1#8 (by decide : regSpH ≠ regSpL) (by decide) h hk
  exact ⟨_, hf, abs_setSp _ _,
    (((KeepsBut.refl _ s).set regSpL (by decide) _).set regSpH (by decide) _).setSreg f⟩

theorem decSp_run (s : Avr.State (Bus δ)) (h : s.r r1 = 0#8) (hk : s.r regTmp2 = 1#8) :
    ∃ s', sbc regSpH r1 (sub regSpL regTmp2 s).2 = ((), s')
      ∧ abs s' = { abs s with sp := (abs s).sp - 1 } ∧ KeepsBut [regSpL, regSpH] s s' := by
  obtain ⟨f, hf⟩ := subConst_run s 1#8 (by decide : regSpH ≠ regSpL) (by decide) h hk
  exact ⟨_, hf, abs_setSp _ _,
    (((KeepsBut.refl _ s).set regSpL (by decide) _).set regSpH (by decide) _).setSreg f⟩

/-- `fetch_op` reads the byte at PC and steps over it. -/
theorem fetchOp_run (s : Avr.State (Bus δ)) :
    ∃ s', fetchOp s = ((), s') ∧ abs s' = (abs s).next ∧ s'.r regMemR = (abs s).imm
      ∧ s'.stack = s.stack ∧ KeepsBut [regMemR, regTmp1, regPcL, regPcH] s s' := by
  have hz : flagZ (inc regPcL (sramRead regPcL regPcH regMemR regTmp1 s).2).2
      = (s.r regPcL + 1#8 == 0#8, (inc regPcL (sramRead regPcL regPcH regMemR regTmp1 s).2).2) :=
    rfl
  have hpc := word_add_one (s.r regPcH) (s.r regPcL)
  have hrun : fetchOp s = _ := branch_run hz (inc regPcH) (pure ())
  have hkeep : ∀ f, KeepsBut [regMemR, regTmp1, regPcL, regPcH] s
      (((sramRead regPcL regPcH regMemR regTmp1 s).2.set regPcL (s.r regPcL + 1#8)).setSreg f) :=
    fun f => ((((KeepsBut.refl _ s).set regMemR (by decide) (abs s).imm).set regTmp1 (by decide)
      0xff#8).set regPcL (by decide) (s.r regPcL + 1#8)).setSreg f
  cases hb : (s.r regPcL + 1#8 == 0#8) with
  | true =>
      rw [hb, if_pos rfl] at hrun hpc
      exact ⟨_, hrun, congrArg (fun pc => { abs s with pc := pc }) hpc, rfl, rfl,
        KeepsBut.set (hkeep _) regPcH (by decide) _⟩
  | false =>
      rw [hb, if_neg Bool.false_ne_true] at hrun hpc
      exact ⟨_, hrun, congrArg (fun pc => { abs s with pc := pc }) hpc, rfl, rfl, hkeep _⟩

end I8080

end CpMega88
