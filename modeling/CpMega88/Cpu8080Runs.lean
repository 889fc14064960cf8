import CpMega88.Bcd
import CpMega88.Cpu8080Step

/-!
# Steps of the C core in a row

`after` calls `cpu_8080_step` a number of times, whatever it returns: a
caller that stops at a non-zero code sees a prefix of this. `step_daa`
adds what `step_refines` leaves out, so that what is shown of single
steps covers every opcode.
-/

namespace CpMega88

open Bytes Runs

namespace Cpu8080

open Isa

variable {δ : Type}

/-! ## One step, every opcode -/

section

variable (ports : Ports δ)

theorem step_daa {w : Work δ} (h : decode (w.mem w.pc) = .daa) :
    (step ports w).2.arch
        = { w.arch.next with a := daaA w.a w.f, f := daaF w.a w.f } := by
  have hop : w.mem w.pc = 0x27#8 := eq_encode h (by decide)
  have hrun : step ports w = brk daa { w with pc := w.pc + 1, op := w.mem w.pc } := by
    show switch ports (w.mem w.pc) { w with pc := w.pc + 1, op := w.mem w.pc } = _
    rw [hop]
    rfl
  rw [hrun, brk, bind_run, daa_eq]
  rfl

/-- What `cpu_8080_step` returns, by the opcode alone. -/
def code (op : Byte) : Int :=
  if op = 0x76#8 then 1 else if op ∈ undefinedOpcodes then -256 + op.toNat else 0

theorem step_code (w : Work δ) : (step ports w).1 = code (w.mem w.pc) := by
  show (switch ports (w.mem w.pc) { w with pc := w.pc + 1, op := w.mem w.pc }).1 = _
  generalize ({ w with pc := w.pc + 1, op := w.mem w.pc } : Work δ) = w'
  generalize w.mem w.pc = op
  by_cases hhlt : op = 0x76#8
  · subst hhlt
    rfl
  by_cases hundef : op ∈ undefinedOpcodes
  · rw [switch_undefined ports hundef, code, if_neg hhlt, if_pos hundef]
    rfl
  rw [code, if_neg hhlt, if_neg hundef]
  have hgo : (decode op).stops = false := by
    rw [Bool.eq_false_iff, ne_eq, stops_iff]
    exact not_or.mpr ⟨hhlt, hundef⟩
  by_cases hdaa : decode op = .daa
  · obtain rfl := eq_encode hdaa (by decide)
    rfl
  · exact not_not.mp fun hne => by
      simp [(switch_refines ports hdaa w').2.mp hne] at hgo

/-- A step whose instruction is known, other than DAA. -/
theorem step_arch {w : Work δ} {i : Instr} (h : decode w.arch.imm = i) (hdaa : i ≠ .daa) :
    (step ports w).2.arch = exec coreAux ports i w.arch.next := by
  subst h
  exact (step_refines ports w hdaa).1

end

/-! ## Runs -/

/-- The work area after `n` calls of `cpu_8080_step`. -/
def after (ports : Ports δ) (w : Work δ) (n : Nat) : Work δ :=
  (fun w => (step ports w).2)^[n] w

@[simp] theorem after_zero (ports : Ports δ) (w : Work δ) : after ports w 0 = w := rfl

theorem after_succ (ports : Ports δ) (w : Work δ) (n : Nat) :
    after ports w (n + 1) = (step ports (after ports w n)).2 :=
  Function.iterate_succ_apply' _ n w

theorem after_add (ports : Ports δ) (w : Work δ) (m n : Nat) :
    after ports w (m + n) = after ports (after ports w m) n := by
  rw [after, Nat.add_comm, Function.iterate_add_apply]
  rfl

end Cpu8080

end CpMega88
