import CpMega88.Isa

/-!
# The arithmetic group in integers

What each arithmetic, logic and rotate instruction computes, stated on
integers (`arithSpec`): the exact result before it is cut to its
operand's width, the operand it goes to, the carry out or borrow, and
whether sign, zero and parity follow the result. `exec_arith` shows that
`exec` does exactly this, whatever the convention for the auxiliary
carry. DAA is not in this table: it is a digit-wise correction and not
an operation on the whole byte.
-/

namespace CpMega88

open Bytes

namespace Isa

variable {δ : Type}

/-- The arithmetic, logic and rotate groups, with DAA, DAD, INR, DCR,
CMA, STC and CMC. -/
def Instr.isArith : Instr → Bool
  | .dad _ | .inr _ | .dcr _ | .rot _ | .daa | .cma | .stc | .cmc | .alu _ _ | .aluImm _ => true
  | _ => false

/-! ## The specification -/

/-- Where the result goes. -/
inductive Dest where
  | none
  | reg (r : Reg)
  | hl
deriving DecidableEq, Repr

def Dest.write (s : State δ) (n : Int) : Dest → State δ
  | .none => s
  | .reg r => s.set r (BitVec.ofInt 8 n)
  | .hl => s.setPair .hl (hiByte (BitVec.ofInt 16 n)) (loByte (BitVec.ofInt 16 n))

/-- An exact result with its destination, the carry after it (`none`:
untouched), and whether S, Z and P are those of the result. -/
structure ArithSpec where
  dest : Dest
  result : Int
  carry : Option Bool
  szp : Bool

def aluSpec (op : AluOp) (a v : Byte) (c : Bool) : ArithSpec :=
  match op with
  | .add => ⟨.reg .a, a.toNat + v.toNat, some (256 ≤ a.toNat + v.toNat), true⟩
  | .adc =>
      ⟨.reg .a, a.toNat + v.toNat + c.toNat, some (256 ≤ a.toNat + v.toNat + c.toNat), true⟩
  | .sub => ⟨.reg .a, a.toNat - v.toNat, some (a.toNat < v.toNat), true⟩
  | .sbb => ⟨.reg .a, a.toNat - v.toNat - c.toNat, some (a.toNat < v.toNat + c.toNat), true⟩
  | .ana => ⟨.reg .a, (a.toNat &&& v.toNat : Nat), some false, true⟩
  | .xra => ⟨.reg .a, (a.toNat ^^^ v.toNat : Nat), some false, true⟩
  | .ora => ⟨.reg .a, (a.toNat ||| v.toNat : Nat), some false, true⟩
  | .cmp => ⟨.none, a.toNat - v.toNat, some (a.toNat < v.toNat), true⟩

def rotSpec (op : RotOp) (a : Byte) (c : Bool) : ArithSpec :=
  match op with
  | .rlc => ⟨.reg .a, 2 * a.toNat + a.toNat / 128, some (a.toNat / 128 = 1), false⟩
  | .rrc => ⟨.reg .a, 128 * (a.toNat % 2) + a.toNat / 2, some (a.toNat % 2 = 1), false⟩
  | .ral => ⟨.reg .a, 2 * a.toNat + c.toNat, some (a.toNat / 128 = 1), false⟩
  | .rar => ⟨.reg .a, 128 * c.toNat + a.toNat / 2, some (a.toNat % 2 = 1), false⟩

/-- The specification of `i` from the state after its opcode byte. -/
def arithSpec (i : Instr) (s : State δ) : Option ArithSpec :=
  match i with
  | .alu op src => some (aluSpec op s.a (s.get src) (hasCY s.f))
  | .aluImm op => some (aluSpec op s.a s.imm (hasCY s.f))
  | .inr r => some ⟨.reg r, (s.get r).toNat + 1, none, true⟩
  | .dcr r => some ⟨.reg r, (s.get r).toNat - 1, none, true⟩
  | .dad rp =>
      some ⟨.hl, s.hl.toNat + (s.getPair rp).toNat,
        some (65536 ≤ s.hl.toNat + (s.getPair rp).toNat), false⟩
  | .rot op => some (rotSpec op s.a (hasCY s.f))
  | .cma => some ⟨.reg .a, 255 - s.a.toNat, none, false⟩
  | .stc => some ⟨.none, 0, some true, false⟩
  | .cmc => some ⟨.none, 0, some (!hasCY s.f), false⟩
  | _ => none

/-- The state once the instruction's operand bytes are consumed too. -/
def afterOperands (i : Instr) (s : State δ) : State δ :=
  match i with
  | .aluImm _ => s.next
  | _ => s

/-- `t` is what `sp` makes of `s`: the result is in its destination, the
flags are as specified, and nothing else has changed. -/
structure ArithSpec.Holds (sp : ArithSpec) (s t : State δ) : Prop where
  frame : t = { sp.dest.write s sp.result with f := t.f }
  carry : hasCY t.f = sp.carry.getD (hasCY s.f)
  szp : sp.szp = true →
    hasS t.f = decide (128 ≤ sp.result % 256) ∧ hasZ t.f = decide (sp.result % 256 = 0)
      ∧ hasP t.f = evenParity (BitVec.ofInt 8 sp.result)
  untouched : sp.szp = false →
    hasS t.f = hasS s.f ∧ hasZ t.f = hasZ s.f ∧ hasP t.f = hasP s.f ∧ hasAC t.f = hasAC s.f

/-! ## Flag bytes -/

theorem hasFlags_packFlags (s z ac p cy : Bool) :
    hasS (packFlags s z ac p cy) = s ∧ hasZ (packFlags s z ac p cy) = z
      ∧ hasAC (packFlags s z ac p cy) = ac ∧ hasP (packFlags s z ac p cy) = p
      ∧ hasCY (packFlags s z ac p cy) = cy := by
  cases s <;> cases z <;> cases ac <;> cases p <;> cases cy <;> decide

theorem hasCY_flagsOf (r : Byte) (ac cy : Bool) : hasCY (flagsOf r ac cy) = cy :=
  (hasFlags_packFlags _ _ _ _ _).2.2.2.2

theorem hasAC_flagsOf (r : Byte) (ac cy : Bool) : hasAC (flagsOf r ac cy) = ac :=
  (hasFlags_packFlags _ _ _ _ _).2.2.1

theorem flagsOf_carries (r : Byte) (ac cy : Bool) :
    flagsOf r ac cy = (if cy then flagCY else 0#8) ||| (if ac then flagAC else 0#8)
      ||| flagsOf r false false := by
  unfold flagsOf packFlags
  cases r.msb <;> cases r == 0 <;> cases evenParity r <;> cases ac <;> cases cy <;> rfl

theorem and_flagCY (f : Byte) : f &&& flagCY = if hasCY f then flagCY else 0#8 :=
  and_bit f rfl

theorem setCY_true (f : Byte) : setCY f true = f ||| flagCY :=
  eq_of_bits (by simp [setCY, flagCY])

theorem setCY_false (f : Byte) : setCY f false = f &&& ~~~flagCY := by
  rw [setCY, if_neg Bool.false_ne_true, BitVec.or_zero]

theorem setCY_not (f : Byte) : setCY f (!hasCY f) = f ^^^ flagCY := by
  cases h : hasCY f with
  | false => exact eq_of_bits (by simp_all [setCY, hasCY, flagCY])
  | true => exact eq_of_bits (by simp_all [setCY, hasCY, flagCY])

theorem hasCY_setCY (f : Byte) (c : Bool) : hasCY (setCY f c) = c := by
  cases c <;> simp [hasCY, setCY, flagCY]

theorem setCY_frame (f : Byte) (c : Bool) :
    hasS (setCY f c) = hasS f ∧ hasZ (setCY f c) = hasZ f ∧ hasP (setCY f c) = hasP f
      ∧ hasAC (setCY f c) = hasAC f := by
  cases c <;> simp [hasS, hasZ, hasP, hasAC, setCY, flagCY]

/-- Sign, zero and parity of a byte given as the residue of an exact
result. -/
theorem szp_flagsOf {r : Byte} {n : Int} (h : r = BitVec.ofInt 8 n) (ac cy : Bool) :
    hasS (flagsOf r ac cy) = decide (128 ≤ n % 256)
      ∧ hasZ (flagsOf r ac cy) = decide (n % 256 = 0)
      ∧ hasP (flagsOf r ac cy) = evenParity (BitVec.ofInt 8 n) := by
  subst h
  obtain ⟨hs, hz, -, hp, -⟩ := hasFlags_packFlags (BitVec.ofInt 8 n).msb
    (BitVec.ofInt 8 n == 0#8) ac (evenParity (BitVec.ofInt 8 n)) cy
  have hn : ((BitVec.ofInt 8 n).toNat : Int) = n % 256 := by
    rw [BitVec.toNat_ofInt]
    omega
  refine ⟨hs.trans ?_, hz.trans ?_, hp⟩
  · rw [BitVec.msb_eq_decide, decide_eq_decide]
    omega
  · rw [Bool.eq_iff_iff, beq_iff_eq, decide_eq_true_iff, ← BitVec.toNat_inj]
    simp only [BitVec.toNat_ofNat]
    omega

/-! ## `exec` meets the specification -/

section

variable (aux : AuxCarry)

/-- Cutting the bitwise result of two bytes to a byte changes nothing. -/
theorem ofInt_bitwise (a v : Byte) :
    BitVec.ofInt 8 (a.toNat &&& v.toNat : Nat) = a &&& v
      ∧ BitVec.ofInt 8 (a.toNat ^^^ v.toNat : Nat) = a ^^^ v
      ∧ BitVec.ofInt 8 (a.toNat ||| v.toNat : Nat) = a ||| v := by
  rw [← BitVec.toNat_and, ← BitVec.toNat_xor, ← BitVec.toNat_or]
  refine ⟨?_, ?_, ?_⟩ <;> rw [BitVec.ofInt_natCast, BitVec.ofNat_toNat, BitVec.setWidth_eq]

/-- Result and flags of an ALU operation. -/
theorem alu_spec (op : AluOp) (a v : Byte) (c : Bool) :
    (aluSpec op a v c).szp = true
      ∧ (∃ ac, (alu aux op a v c).2 = flagsOf (BitVec.ofInt 8 (aluSpec op a v c).result) ac
          ((aluSpec op a v c).carry.getD c))
      ∧ (((aluSpec op a v c).dest = .reg .a
          ∧ (alu aux op a v c).1 = BitVec.ofInt 8 (aluSpec op a v c).result)
        ∨ ((aluSpec op a v c).dest = .none ∧ (alu aux op a v c).1 = a)) := by
  obtain ⟨hand, hxor, hor⟩ := ofInt_bitwise a v
  have hsub : ∀ b : Bool, decide ((a.toNat : Int) - v.toNat - b.toNat < 0)
      = decide (a.toNat < v.toNat + b.toNat) := fun b => by
    rw [decide_eq_decide]
    omega
  cases op with
  | add => exact ⟨rfl, ⟨aux.add a v false, rfl⟩, .inl ⟨rfl, rfl⟩⟩
  | adc => exact ⟨rfl, ⟨aux.add a v c, rfl⟩, .inl ⟨rfl, rfl⟩⟩
  | sub =>
      refine ⟨rfl, ⟨aux.sub a v false, ?_⟩, .inl ⟨rfl, ?_⟩⟩
      · rw [alu, subWith, hsub]
        simp [aluSpec]
      · simp [alu, subWith, aluSpec]
  | sbb =>
      refine ⟨rfl, ⟨aux.sub a v c, ?_⟩, .inl ⟨rfl, rfl⟩⟩
      rw [alu, subWith, hsub]
      rfl
  | ana => exact ⟨rfl, ⟨aux.ana a v, by rw [aluSpec, hand]; rfl⟩, .inl ⟨rfl, hand.symm⟩⟩
  | xra => exact ⟨rfl, ⟨false, by rw [aluSpec, hxor]; rfl⟩, .inl ⟨rfl, hxor.symm⟩⟩
  | ora => exact ⟨rfl, ⟨false, by rw [aluSpec, hor]; rfl⟩, .inl ⟨rfl, hor.symm⟩⟩
  | cmp =>
      refine ⟨rfl, ⟨aux.sub a v false, ?_⟩, .inr ⟨rfl, rfl⟩⟩
      rw [alu, subWith, hsub]
      simp [aluSpec]

/-- Rotated accumulator and the bit shifted out. -/
theorem rot_spec (op : RotOp) (a : Byte) (c : Bool) :
    (rotSpec op a c).dest = .reg .a ∧ (rotSpec op a c).szp = false
      ∧ (rotate op a c).1 = BitVec.ofInt 8 (rotSpec op a c).result
      ∧ (rotSpec op a c).carry = some (rotate op a c).2 := by
  revert a c
  cases op <;> decide +kernel

/-- An instruction that writes sign, zero and parity of its result. -/
theorem Holds.of_szp {sp : ArithSpec} {s t : State δ} {ac : Bool} (hszp : sp.szp = true)
    (hframe : t = { sp.dest.write s sp.result with f := t.f })
    (hf : t.f = flagsOf (BitVec.ofInt 8 sp.result) ac (sp.carry.getD (hasCY s.f))) :
    sp.Holds s t := by
  refine ⟨hframe, ?_, fun _ => ?_, fun h => ?_⟩
  · rw [hf, hasCY_flagsOf]
  · rw [hf]
    exact szp_flagsOf rfl _ _
  · simp [hszp] at h

/-- An instruction that touches no flag but the carry. -/
theorem Holds.of_carry {sp : ArithSpec} {s t : State δ} {cy : Bool} (hszp : sp.szp = false)
    (hcarry : sp.carry = some cy)
    (hframe : t = { sp.dest.write s sp.result with f := t.f }) (hf : t.f = setCY s.f cy) :
    sp.Holds s t := by
  refine ⟨hframe, ?_, fun h => ?_, fun _ => ?_⟩
  · rw [hf, hasCY_setCY, hcarry, Option.getD_some]
  · simp [hszp] at h
  · rw [hf]
    exact setCY_frame s.f cy

theorem cma_eq (a : Byte) : ~~~a = BitVec.ofInt 8 (255 - a.toNat) := by
  apply BitVec.eq_of_toNat_eq
  simp only [BitVec.toNat_not, BitVec.toNat_ofInt]
  omega

/-- The nine bits that a rotation through the carry moves. -/
theorem getLsbD_carryIn (c : Bool) (a : Byte) : ∃ x : BitVec 9, BitVec.ofBool c ++ a = x
    ∧ x.getLsbD 8 = c ∧ ∀ i < 8, x.getLsbD i = a.getLsbD i := by
  refine ⟨_, rfl, ?_, fun i hi => ?_⟩
  · exact BitVec.getLsbD_append.trans (by cases c <;> rfl)
  · exact BitVec.getLsbD_append.trans (if_pos hi)

theorem ral_eq (c : Bool) (a : Byte) : ((BitVec.ofBool c ++ a).rotateLeft 1).setWidth 8
      = a <<< 1 ||| (if c then flagCY else 0#8) := by
  obtain ⟨x, hx, htop, hlow⟩ := getLsbD_carryIn c a
  rw [hx]
  cases c <;> exact eq_of_bits (by
    simp [-BitVec.getLsbD_eq_getElem, BitVec.getLsbD_rotateLeft, flagCY, htop, hlow])

theorem rar_eq (c : Bool) (a : Byte) : ((BitVec.ofBool c ++ a).rotateRight 1).setWidth 8
      = (if c then flagS else 0#8) ||| a >>> 1 := by
  obtain ⟨x, hx, htop, hlow⟩ := getLsbD_carryIn c a
  rw [hx]
  cases c <;> exact eq_of_bits (by
    simp [-BitVec.getLsbD_eq_getElem, BitVec.getLsbD_rotateRight, flagS, htop, hlow])

/-- Every arithmetic instruction but DAA has its specification and meets
it. -/
theorem exec_arith (ports : Ports δ) {i : Instr} (hi : i.isArith = true) (hdaa : i ≠ .daa)
    (s : State δ) :
    ∃ sp, arithSpec i s = some sp ∧ sp.Holds (afterOperands i s) (exec aux ports i s) := by
  cases i with
  | daa => exact absurd rfl hdaa
  | alu op src =>
      obtain ⟨hszp, ⟨ac, hf⟩, hres⟩ := alu_spec aux op s.a (s.get src) (hasCY s.f)
      refine ⟨_, rfl, Holds.of_szp hszp ?_ hf⟩
      rcases hres with ⟨hd, hr⟩ | ⟨hd, hr⟩ <;> rw [hd, exec, hr] <;> rfl
  | aluImm op =>
      obtain ⟨hszp, ⟨ac, hf⟩, hres⟩ := alu_spec aux op s.a s.imm (hasCY s.f)
      refine ⟨_, rfl, Holds.of_szp hszp ?_ hf⟩
      rcases hres with ⟨hd, hr⟩ | ⟨hd, hr⟩ <;> rw [hd, exec, hr] <;> rfl
  | inr r => exact ⟨_, rfl, Holds.of_szp rfl rfl rfl⟩
  | dcr r =>
      have hr : (subWith aux (s.get r) 1#8 false).1 = BitVec.ofInt 8 ((s.get r).toNat - 1) := by
        simp [subWith]
      refine ⟨_, rfl, Holds.of_szp rfl ?_ (congrArg (flagsOf · _ _) hr)⟩
      exact congrArg (fun v => { s.set r v with f := (exec aux ports (.dcr r) s).f }) hr
  | dad rp => exact ⟨_, rfl, Holds.of_carry rfl rfl rfl rfl⟩
  | rot op =>
      obtain ⟨hd, hszp, hr, hcy⟩ := rot_spec op s.a (hasCY s.f)
      refine ⟨_, rfl, Holds.of_carry hszp hcy ?_ rfl⟩
      rw [hd, exec, hr]
      rfl
  | cma =>
      refine ⟨_, rfl, ⟨?_, rfl, fun h => Bool.noConfusion h, fun _ => ⟨rfl, rfl, rfl, rfl⟩⟩⟩
      rw [exec, cma_eq]
      rfl
  | stc => exact ⟨_, rfl, Holds.of_carry rfl rfl rfl rfl⟩
  | cmc => exact ⟨_, rfl, Holds.of_carry rfl rfl rfl rfl⟩
  | _ => simp [Instr.isArith] at hi

end

end Isa

end CpMega88
