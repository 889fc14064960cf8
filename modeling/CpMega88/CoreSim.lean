import CpMega88.Cpu8080Refine
import CpMega88.I8080Refine

/-!
# The two cores side by side

Both cores take the step of the instruction set, so they take the same
step: `Agree` (the AVR registers stand for the work area, and the zero
register is zero) is kept by a step of each, and by runs of any length
(`cores_agree`), as long as no opcode is reached on which the assembly
core goes its own way.
-/

namespace CpMega88

open Bytes Runs

variable {δ : Type}

/-- The assembly core's state stands for the C core's. -/
def Agree (s : Avr.State (I8080.Bus δ)) (w : Cpu8080.Work δ) : Prop :=
  I8080.abs s = w.arch ∧ s.r I8080.r1 = 0#8

/-- `cpu_8080_step` as a machine: it stops on a non-zero code. -/
def Cpu8080.machine (ports : Ports δ) (w : Cpu8080.Work δ) : Cpu8080.Work δ × Bool :=
  ((Cpu8080.step ports w).2, decide ((Cpu8080.step ports w).1 ≠ 0))

/-- The opcode at PC is neither DAA, nor PUSH PSW, nor HLT. -/
def SharedOpcode (w : Cpu8080.Work δ) : Prop := w.mem w.pc ∉ I8080.ownOpcodes

theorem agree_step (env : I8080.Env δ) {s : Avr.State (I8080.Bus δ)} {w : Cpu8080.Work δ}
    (h : Agree s w) (hop : SharedOpcode w) :
    Agree (I8080.step env s).1 (Cpu8080.machine env.ports w).1
      ∧ (I8080.step env s).2 = (Cpu8080.machine env.ports w).2 := by
  obtain ⟨habs, hz⟩ := h
  have himm : (I8080.abs s).imm = w.mem w.pc := congrArg Isa.State.imm habs
  obtain ⟨hasm, hasmStop, hz'⟩ := I8080.step_refines env s hz (himm ▸ hop)
  have hdaa : Isa.decode (w.mem w.pc) ≠ .daa := (I8080.decode_of_not_own _ hop).1
  obtain ⟨hc, hcStop⟩ := Cpu8080.step_refines env.ports w hdaa
  refine ⟨⟨?_, hz'⟩, ?_⟩
  · rw [hasm, habs]
    exact hc.symm
  · rw [hasmStop, habs, Bool.eq_iff_iff, Cpu8080.machine, decide_eq_true_iff]
    exact hcStop.symm

/-- From states that agree, after any number of steps the two cores
agree on registers, flags, memory, devices and the calls made, and have
both stopped or both not. -/
theorem cores_agree (env : I8080.Env δ) (n : Nat) (s : Avr.State (I8080.Bus δ))
    (w : Cpu8080.Work δ) (h : Agree s w)
    (hrun : Along (Cpu8080.machine env.ports) SharedOpcode n w) :
    Agree (run (I8080.step env) n s).1 (run (Cpu8080.machine env.ports) n w).1
      ∧ (run (I8080.step env) n s).2 = (run (Cpu8080.machine env.ports) n w).2 :=
  lockstep (fun _ _ => agree_step env) h hrun

/-- Three INR A after a reset. -/
theorem cores_agree_inr :
    Agree (run (I8080.step .idle) 3 (I8080.cold fun _ => 0x3c#8)).1
        (run (Cpu8080.machine .idle) 3 (Cpu8080.Work.cold fun _ => 0x3c#8)).1
      ∧ (run (I8080.step .idle) 3 (I8080.cold fun _ => 0x3c#8)).2
        = (run (Cpu8080.machine .idle) 3 (Cpu8080.Work.cold fun _ => 0x3c#8)).2 := by
  have hop : ∀ w : Cpu8080.Work Unit, w.mem = (fun _ => 0x3c#8) → SharedOpcode w := by
    intro w hw
    rw [SharedOpcode, hw]
    exact (by decide : (0x3c#8 : Byte) ∉ I8080.ownOpcodes)
  exact cores_agree .idle 3 _ _ ⟨rfl, rfl⟩
    ⟨hop _ rfl, fun _ => ⟨hop _ rfl, fun _ => ⟨hop _ rfl, fun _ => trivial⟩⟩⟩

end CpMega88
