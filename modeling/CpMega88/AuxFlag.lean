import CpMega88.Cpu8080Step

/-!
# The auxiliary carry of the chip

On the 8080 the auxiliary carry is a wire: the carry out of bit 3 of an
adder that subtracts by adding complements, and after AND bit 3 of the
OR of the operands (`intelAC`). The C core reconstructs it from nibbles:
a carry after additions, a borrow after subtractions, and always set
after AND. A borrow is the complement of that carry, so the two agree on
no subtraction at all (`aux_follows_iff`).
-/

namespace CpMega88

open Bytes

namespace Isa

variable {δ : Type}

/-- The auxiliary carry of the chip's adder, after `a op v` with the
carry `c`; XRA and ORA do not use the adder. -/
def aluAC (op : AluOp) (a v : Byte) (c : Bool) : Option Bool :=
  match op with
  | .add => some (nibbleCarry a v false)
  | .adc => some (nibbleCarry a v c)
  | .sub | .cmp => some (nibbleCarry a (~~~v) true)
  | .sbb => some (nibbleCarry a (~~~v) (!c))
  | .ana => some (a.getLsbD 3 || v.getLsbD 3)
  | .xra | .ora => none

/-- The auxiliary carry the chip leaves after `i`, from the state after
its opcode byte. -/
def intelAC (i : Instr) (s : State δ) : Option Bool :=
  match i with
  | .alu op src => aluAC op s.a (s.get src) (hasCY s.f)
  | .aluImm op => aluAC op s.a s.imm (hasCY s.f)
  | .inr r => some (nibbleCarry (s.get r) 1#8 false)
  | .dcr r => some (nibbleCarry (s.get r) (~~~1#8) true)
  | _ => none

/-- It is the one of the instruction set under Intel's convention. -/
theorem exec_intelAux (ports : Ports δ) {i : Instr} {s : State δ} {ac : Bool}
    (h : intelAC i s = some ac) : hasAC (exec intelAux ports i s).f = ac := by
  have halu {op : AluOp} {a v : Byte} {c : Bool} (h : aluAC op a v c = some ac) :
      hasAC (alu intelAux op a v c).2 = ac := by
    cases op with
    | xra | ora => cases h
    | ana =>
        obtain rfl := Option.some.inj h
        exact (hasAC_flagsOf _ _ _).trans BitVec.getLsbD_or
    | add | adc | sub | cmp | sbb =>
        obtain rfl := Option.some.inj h
        exact hasAC_flagsOf _ _ _
  cases i with
  | alu op src => exact halu h
  | aluImm op => exact halu h
  | inr r | dcr r =>
      obtain rfl := Option.some.inj h
      exact (hasAC_flagsOf _ _ _).trans (hasAC_flagsOf _ _ _)
  | _ => cases h

/-- Where the core agrees with the chip, by operation and operands. -/
def AluMeets (op : AluOp) (a v : Byte) : Prop :=
  match op with
  | .add | .adc => True
  | .ana => (a ||| v).getLsbD 3 = true
  | _ => False

/-- The same by instruction. -/
def AuxMeets (i : Instr) (s : State δ) : Prop :=
  match i with
  | .alu op src => AluMeets op s.a (s.get src)
  | .aluImm op => AluMeets op s.a s.imm
  | .inr _ => True
  | _ => False

/-- The borrow of bit 3 is the complement of the adder's carry. -/
theorem nibbleCarry_compl (a v : Byte) (b : Bool) :
    nibbleCarry a (~~~v) b = !coreAux.sub a v (!b) := by
  have hv : (~~~v).toNat % 16 = 15 - v.toNat % 16 := by
    have := v.isLt
    rw [BitVec.toNat_not]
    omega
  have hsub : (!coreAux.sub a v (!b))
      = decide ¬ a.toNat % 16 < v.toNat % 16 + (!b).toNat := decide_not.symm
  rw [nibbleCarry, hv, hsub, decide_eq_decide]
  cases b <;> simp only [Bool.not_true, Bool.not_false, Bool.toNat_true, Bool.toNat_false] <;> omega

theorem alu_aux_iff {op : AluOp} {a v : Byte} {c ac : Bool} (h : aluAC op a v c = some ac) :
    hasAC (alu coreAux op a v c).2 = ac ↔ AluMeets op a v := by
  have hsub : ∀ b : Bool, hasAC (subWith coreAux a v (!b)).2 ≠ nibbleCarry a (~~~v) b := by
    intro b
    have hcore : hasAC (subWith coreAux a v (!b)).2 = coreAux.sub a v (!b) := hasAC_flagsOf _ _ _
    rw [hcore, nibbleCarry_compl]
    simp
  cases op with
  | add | adc =>
      obtain rfl := Option.some.inj h
      exact iff_of_true (hasAC_flagsOf _ _ _) trivial
  | sub | cmp =>
      obtain rfl := Option.some.inj h
      exact iff_of_false (hsub true) id
  | sbb =>
      obtain rfl := Option.some.inj h
      have hborrow := hsub (!c)
      rw [Bool.not_not] at hborrow
      exact iff_of_false hborrow id
  | ana =>
      obtain rfl := Option.some.inj h
      have hset : hasAC (alu coreAux .ana a v c).2 = true := hasAC_flagsOf _ _ _
      rw [hset, AluMeets, BitVec.getLsbD_or]
      exact eq_comm
  | xra | ora => cases h

theorem exec_aux_iff (ports : Ports δ) {i : Instr} {s : State δ} {ac : Bool}
    (h : intelAC i s = some ac) :
    hasAC (exec coreAux ports i s).f = ac ↔ AuxMeets i s := by
  cases i with
  | alu op src => exact alu_aux_iff h
  | aluImm op => exact alu_aux_iff h
  | inr r =>
      obtain rfl := Option.some.inj h
      refine iff_of_true ?_ trivial
      rw [exec, hasAC_flagsOf]
      exact hasAC_flagsOf _ _ _
  | dcr r =>
      obtain rfl := Option.some.inj h
      rw [nibbleCarry_compl]
      refine iff_of_false (fun hac => ?_) id
      rw [exec, hasAC_flagsOf, subWith, hasAC_flagsOf] at hac
      simp at hac
  | _ => cases h

end Isa

namespace Cpu8080

open Isa

variable {δ : Type}

/-- After ADD, ADC and INR the core's AC is the chip's. After ANA and ANI
it is where one of the operands has bit 3. After SUB, SBB, CMP and DCR it
never is. -/
theorem aux_follows_iff (ports : Ports δ) (w : Work δ) (ac : Bool)
    (h : intelAC (decode (w.mem w.pc)) w.arch.next = some ac) :
    hasAC (step ports w).2.f = ac ↔ AuxMeets (decode (w.mem w.pc)) w.arch.next := by
  have hdaa : decode (w.mem w.pc) ≠ .daa := by
    intro hdaa
    rw [hdaa] at h
    cases h
  have hf : (step ports w).2.f = (exec coreAux ports (decode (w.mem w.pc)) w.arch.next).f :=
    congrArg State.f (step_refines ports w hdaa).1
  rw [hf]
  exact exec_aux_iff ports h

/-- 39h in A and 18h in B: the sum has a carry out of bit 3. -/
def auxReady (op : Byte) : Work Unit := { Work.cold fun _ => op with a := 0x39, b := 0x18 }

/-- After an ADD B the core has the chip's AC, after a SUB B the other. -/
theorem aux_follows_add : hasAC (step .idle (auxReady 0x80)).2.f = true
    ∧ hasAC (step .idle (auxReady 0x90)).2.f ≠ true :=
  ⟨(aux_follows_iff .idle (auxReady 0x80) true rfl).mpr trivial,
    (aux_follows_iff .idle (auxReady 0x90) true rfl).not.mpr id⟩

/-- A SUB B after a reset subtracts 0 from 0: the chip's adder carries
out of bit 3, the core sees no borrow. -/
theorem aux_differs_sub :
    intelAC (decode 0x90#8) (Work.cold fun _ => 0x90#8).arch.next = some true
      ∧ hasAC (step .idle (Work.cold fun _ => 0x90#8)).2.f = false :=
  ⟨rfl, rfl⟩

end Cpu8080

end CpMega88
