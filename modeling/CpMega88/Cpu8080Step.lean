import CpMega88.Cpu8080Refine

/-!
# One step of the C core

What `cpu_8080_step` does, read off `step_refines` for the two halves of
the instruction set. The instructions that move, jump, stack and do I/O
have exactly the effect their bit fields name, for any convention of the
auxiliary carry, since none of them computes one (`step_nonarith`). The
arithmetic group meets its integer specification (`step_arith`).
-/

namespace CpMega88

open Bytes

namespace Isa

variable {δ : Type} (ports : Ports δ)

/-- Outside the arithmetic group no flag is computed. -/
theorem exec_nonarith {i : Instr} (hi : i.isArith = false) (aux aux' : AuxCarry) (s : State δ) :
    exec aux ports i s = exec aux' ports i s := by
  cases i <;> first | (simp [Instr.isArith] at hi; done) | rfl

theorem exec_stops {i : Instr} (hi : i.stops = true) (aux : AuxCarry) (s : State δ) :
    exec aux ports i s = s := by
  cases i <;> first | (simp [Instr.stops] at hi; done) | rfl

theorem stops_iff (op : Byte) :
    (decode op).stops = true ↔ op = 0x76#8 ∨ op ∈ undefinedOpcodes := by
  rw [← decode_hlt_iff, ← decode_undefined_iff]
  cases decode op <;> simp [Instr.stops]

/-- Only IN and OUT reach the devices. -/
theorem exec_quiet {i : Instr} (hin : i ≠ .input) (hout : i ≠ .output) (aux : AuxCarry)
    (s : State δ) :
    (exec aux ports i s).dev = s.dev ∧ (exec aux ports i s).calls = s.calls := by
  have hset : ∀ (t : State δ) (r : Reg) (v : Byte),
      (t.set r v).dev = t.dev ∧ (t.set r v).calls = t.calls := fun t r v => by
    cases r <;> exact ⟨rfl, rfl⟩
  have hpair : ∀ (t : State δ) (rp : Pair) (hi lo : Byte),
      (t.setPair rp hi lo).dev = t.dev ∧ (t.setPair rp hi lo).calls = t.calls :=
    fun t rp hi lo => by cases rp <;> exact ⟨rfl, rfl⟩
  have hstack : ∀ (t : State δ) (rp : StackPair) (hi lo : Byte),
      (t.setStackPair rp hi lo).dev = t.dev ∧ (t.setStackPair rp hi lo).calls = t.calls :=
    fun t rp hi lo => by cases rp <;> exact ⟨rfl, rfl⟩
  cases i with
  | input => exact absurd rfl hin
  | output => exact absurd rfl hout
  | retIf cc | jmpIf cc | callIf cc =>
      simp only [exec]
      split <;> simp [execRet, execJmp, execCall, jumpTo, State.push, State.pushByte,
        State.drop2, State.next]
  | _ =>
      simp [exec, hset, hpair, hstack, execRet, execJmp, execCall, jumpTo, State.push,
        State.pushByte, State.drop2, State.next, State.store]

end Isa

namespace Cpu8080

open Isa

variable {δ : Type} (ports : Ports δ)

/-- Every opcode outside the arithmetic group: the effect its fields
name, a non-zero code exactly for HLT and the undefined opcodes, which
only step `pc`, and no port call but by IN and OUT. -/
theorem step_nonarith (aux : AuxCarry) (w : Work δ)
    (hop : (decode (w.mem w.pc)).isArith = false) :
    (step ports w).2.arch = exec aux ports (decode (w.mem w.pc)) w.arch.next
      ∧ ((step ports w).1 ≠ 0 ↔ w.mem w.pc = 0x76#8 ∨ w.mem w.pc ∈ undefinedOpcodes)
      ∧ ((step ports w).1 ≠ 0 → (step ports w).2.arch = w.arch.next)
      ∧ (decode (w.mem w.pc) ≠ .input → decode (w.mem w.pc) ≠ .output →
          (step ports w).2.dev = w.dev ∧ (step ports w).2.calls = w.calls) := by
  have hdaa : decode (w.mem w.pc) ≠ .daa := by
    intro h
    rw [h] at hop
    exact Bool.noConfusion hop
  obtain ⟨harch, hcode⟩ := step_refines ports w hdaa
  have hexec : (step ports w).2.arch = exec aux ports (decode (w.mem w.pc)) w.arch.next :=
    harch.trans (exec_nonarith ports hop coreAux aux w.arch.next)
  refine ⟨hexec, hcode.trans (stops_iff _), fun h => ?_, fun hin hout => ?_⟩
  · exact hexec.trans (exec_stops ports (hcode.mp h) aux w.arch.next)
  · have hquiet := exec_quiet ports hin hout aux w.arch.next
    rw [← hexec] at hquiet
    exact hquiet

/-- A PUSH PSW after a reset. -/
theorem step_nonarith_push :
    (step .idle (Work.cold fun _ => 0xf5#8)).2.arch
        = exec coreAux .idle (decode 0xf5#8) (Work.cold fun _ => 0xf5#8).arch.next
      ∧ ((step .idle (Work.cold fun _ => 0xf5#8)).1 ≠ 0
        ↔ (0xf5#8 : Byte) = 0x76#8 ∨ (0xf5#8 : Byte) ∈ undefinedOpcodes) :=
  have h := step_nonarith .idle coreAux (Work.cold fun _ => 0xf5#8) (by decide)
  ⟨h.1, h.2.1⟩

/-- Every opcode of the arithmetic group but DAA's: the exact integer
result in its destination, the exact carry, and no other change. -/
theorem step_arith (w : Work δ) (hop : (decode (w.mem w.pc)).isArith = true)
    (hdaa : decode (w.mem w.pc) ≠ .daa) :
    (step ports w).1 = 0 ∧ ∃ sp, arithSpec (decode (w.mem w.pc)) w.arch.next = some sp
      ∧ sp.Holds (afterOperands (decode (w.mem w.pc)) w.arch.next) (step ports w).2.arch := by
  obtain ⟨harch, hcode⟩ := step_refines ports w hdaa
  have hgo : (decode (w.mem w.pc)).stops = false := by
    revert hop
    cases decode (w.mem w.pc) <;> simp [Instr.isArith, Instr.stops]
  refine ⟨?_, ?_⟩
  · by_contra h
    exact absurd (hcode.mp h) (by simp only [Isa.step, State.imm]; exact Bool.eq_false_iff.mp hgo)
  · rw [harch]
    exact exec_arith coreAux ports hop hdaa w.arch.next

/-- Before an ADC B of 7Ah to 8Fh, with the carry set. -/
def adcReady : Work Unit := { Work.cold fun _ => 0x88#8 with a := 0x8f, b := 0x7a, f := 0x03 }

/-- The sum is 10Ah. -/
theorem step_arith_adc :
    (step .idle adcReady).1 = 0 ∧ (step .idle adcReady).2.a = 0x0a
      ∧ hasCY (step .idle adcReady).2.f = true
      ∧ ∃ sp, arithSpec (decode 0x88#8) adcReady.arch.next = some sp
        ∧ sp.Holds (afterOperands (decode 0x88#8) adcReady.arch.next)
          (step .idle adcReady).2.arch := by
  have h := step_arith .idle adcReady (by decide) (by decide)
  exact ⟨h.1, by decide, by decide, h.2⟩

end Cpu8080

end CpMega88
