import CpMega88.BcdAsm
import CpMega88.CoreSim

/-!
# The pushed flag byte

On the chip a PUSH PSW stores `S Z 0 AC 0 P 1 CY`, whatever happened
before. The cores compute no more than the five flags, but neither of
them masks F: POP PSW loads it as the byte comes, an operation that only
touches some flags leaves the other bits alone, and of the two only the
C core sets bit 1 on the way out.

So what bits 1, 3 and 5 of F hold depends on the run so far, and on
nothing of it but the last instruction that loaded F or computed all of
it (`strayBits`, read off opcodes and popped bytes). A `Core` is what
the two cores share in this; `push_format_iff` says for each when its
PUSH PSWs all store the format.
-/

namespace CpMega88

open Bytes Runs

variable {δ σ : Type}

namespace Isa

/-! ## The format -/

/-- Bits 1, 3 and 5. -/
def fixedBits (f : Byte) : Byte := f &&& 0x2a#8

/-- `S Z 0 AC 0 P 1 CY`. -/
def FlagFormat (f : Byte) : Prop :=
  f.getLsbD 1 = true ∧ f.getLsbD 3 = false ∧ f.getLsbD 5 = false

theorem flagFormat_iff (f : Byte) : FlagFormat f ↔ fixedBits f = 0x02#8 := by
  revert f
  unfold FlagFormat fixedBits
  decide +kernel

theorem flagFormat_or_iff (f : Byte) :
    FlagFormat (f ||| 0x02#8) ↔ fixedBits f &&& 0x28#8 = 0#8 := by
  revert f
  unfold FlagFormat fixedBits
  decide +kernel

theorem fixedBits_or (x y : Byte) : fixedBits (x ||| y) = fixedBits x ||| fixedBits y :=
  BitVec.and_or_distrib_right

/-- Setting one of the five flags. -/
theorem fixedBits_set {m : Byte} (hm : fixedBits m = 0#8) (f : Byte) :
    fixedBits (f ||| m) = fixedBits f := by
  rw [fixedBits_or, hm, BitVec.or_zero]

/-- Clearing some of them. -/
theorem fixedBits_clear {m : Byte} (hm : fixedBits m = 0#8) (f : Byte) :
    fixedBits (f &&& ~~~m) = fixedBits f := by
  have hkeep : ~~~m &&& 0x2a#8 = 0x2a#8 := by
    revert m
    unfold fixedBits
    decide +kernel
  rw [fixedBits, BitVec.and_assoc, hkeep, fixedBits]

theorem fixedBits_packFlags : ∀ s z ac p cy : Bool, fixedBits (packFlags s z ac p cy) = 0#8 := by
  decide

theorem fixedBits_flagsOf (r : Byte) (ac cy : Bool) : fixedBits (flagsOf r ac cy) = 0#8 :=
  fixedBits_packFlags _ _ _ _ _

theorem fixedBits_setCY (f : Byte) (c : Bool) : fixedBits (setCY f c) = fixedBits f := by
  have hcy : fixedBits flagCY = 0#8 := by decide
  cases c with
  | true => rw [setCY_true, fixedBits_set hcy]
  | false => rw [setCY_false, fixedBits_clear hcy]

/-! ## What an instruction makes of the three bits -/

/-- Bits 1, 3 and 5 of F after an instruction, from what they were:
clear where it computes every flag, those of the byte on top of the
stack after POP PSW, and otherwise as they were. -/
def Instr.leaves (top bits : Byte) : Instr → Byte
  | .inr _ | .dcr _ | .alu _ _ | .aluImm _ => 0#8
  | .pop .psw => fixedBits top
  | _ => bits

/-- The same for the instruction at PC. -/
def strayAfter (s : State δ) (bits : Byte) : Byte := (decode s.imm).leaves s.top bits

theorem set_f (s : State δ) (r : Reg) (v : Byte) : (s.set r v).f = s.f := by
  cases r <;> rfl

theorem setPair_f (s : State δ) (rp : Pair) (hi lo : Byte) : (s.setPair rp hi lo).f = s.f := by
  cases rp <;> rfl

theorem alu_flags (aux : AuxCarry) (op : AluOp) (a v : Byte) (c : Bool) :
    fixedBits (alu aux op a v c).2 = 0#8 := by
  cases op <;> exact fixedBits_flagsOf _ _ _

/-- Every instruction but DAA, which the cores and the chip compute
differently. -/
theorem exec_fixedBits (aux : AuxCarry) (ports : Ports δ) {i : Instr} (hdaa : i ≠ .daa)
    (s : State δ) : fixedBits (exec aux ports i s).f = i.leaves s.top (fixedBits s.f) := by
  cases i with
  | daa => exact absurd rfl hdaa
  | inr r | dcr r => exact fixedBits_flagsOf _ _ _
  | alu op src | aluImm op => exact alu_flags aux op _ _ _
  | dad rp => exact fixedBits_setCY _ _
  | rot op => exact fixedBits_setCY _ _
  | stc | cmc => exact fixedBits_setCY _ _
  | mov dst src => exact congrArg fixedBits (set_f _ dst _)
  | mvi dst => exact congrArg fixedBits (set_f _ dst _)
  | lxi rp | inx rp | dcx rp => exact congrArg fixedBits (setPair_f _ rp _ _)
  | pop rp => cases rp <;> exact congrArg fixedBits rfl
  | retIf cc | jmpIf cc | callIf cc =>
      simp only [exec]
      split <;> rfl
  | input | output => simp only [exec, Instr.leaves, execInput, execOutput, State.next]
  | _ => simp [exec, Instr.leaves, execRet, execJmp, execCall, jumpTo, State.push,
        State.pushByte, State.drop2, State.next, State.store]

theorem step_fixedBits (aux : AuxCarry) (ports : Ports δ) (s : State δ)
    (hdaa : decode s.imm ≠ .daa) :
    fixedBits (step aux ports s).1.f = strayAfter s (fixedBits s.f) :=
  exec_fixedBits aux ports hdaa s.next

/-! ## Along a run -/

/-- What the first `n` steps leave in bits 1, 3 and 5 of a cleared F. -/
def strayBits (step : σ → σ × Bool) (view : σ → State δ) (s : σ) : Nat → Byte
  | 0 => 0#8
  | n + 1 => strayAfter (view (run step n s).1) (strayBits step view s n)

/-- The step after the first `n` is taken, and is a PUSH PSW. -/
def PushesPsw (step : σ → σ × Bool) (view : σ → State δ) (s : σ) (n : Nat) : Prop :=
  (run step n s).2 = false ∧ (view (run step n s).1).imm = 0xf5#8

/-- The flag byte it stores: what it leaves on top of the stack. -/
def pushedFlags (step : σ → σ × Bool) (view : σ → State δ) (s : σ) (n : Nat) : Byte :=
  (view (step (run step n s).1).1).top

/-- Every PUSH PSW of a run of any length stores the format. -/
def PushesFormat (step : σ → σ × Bool) (view : σ → State δ) (s : σ) : Prop :=
  ∀ n, PushesPsw step view s n → FlagFormat (pushedFlags step view s n)

end Isa

open Isa

/-- A core: the states its steps keep (`sound`), the 8080 state each
stands for, and the byte its PUSH PSW makes of F. -/
structure Core (δ σ : Type) where
  step : σ → σ × Bool
  view : σ → Isa.State δ
  sound : σ → Prop
  stored : Byte → Byte
  keeps : ∀ s, sound s → (step s).2 = false →
    sound (step s).1 ∧ fixedBits (view (step s).1).f = strayAfter (view s) (fixedBits (view s).f)
  pushes : ∀ s, sound s → (view s).imm = 0xf5#8 → (view (step s).1).top = stored (view s).f

namespace Core

variable (c : Core δ σ)

/-- From a state with F clear, bits 1, 3 and 5 of F are at every point of
the run what its instructions so far left there. -/
theorem run_strayBits {s : σ} (hs : c.sound s) (hf : (c.view s).f = 0#8) :
    ∀ n, (run c.step n s).2 = false →
      c.sound (run c.step n s).1
        ∧ fixedBits (c.view (run c.step n s).1).f = strayBits c.step c.view s n := by
  intro n
  induction n with
  | zero =>
      intro _
      refine ⟨hs, ?_⟩
      rw [run_zero, hf]
      rfl
  | succ n ih =>
      intro hgo
      obtain ⟨hgo', hlast⟩ := run_succ_last hgo
      obtain ⟨hsound, hbits⟩ := ih hgo'
      rw [← hlast] at hgo ⊢
      obtain ⟨hsound', hbits'⟩ := c.keeps _ hsound hgo
      exact ⟨hsound', by rw [hbits', hbits, strayBits]⟩

theorem pushedFlags_eq {s : σ} (hs : c.sound s) (hf : (c.view s).f = 0#8) {n : Nat}
    (hn : PushesPsw c.step c.view s n) :
    ∃ f, fixedBits f = strayBits c.step c.view s n
      ∧ pushedFlags c.step c.view s n = c.stored f := by
  obtain ⟨hgo, himm⟩ := hn
  obtain ⟨hsound, hbits⟩ := c.run_strayBits hs hf n hgo
  exact ⟨_, hbits, c.pushes _ hsound himm⟩

end Core

/-! ## The C core -/

namespace Cpu8080

/-- Leaves bits 1, 3 and 5 of F alone. -/
def KeepsFixed {α : Type} (x : CpuM δ α) : Prop :=
  ∀ w, fixedBits (x w).2.f = fixedBits w.f

theorem KeepsFixed.bind {α β : Type} {x : CpuM δ α} {k : α → CpuM δ β} (hx : KeepsFixed x)
    (hk : ∀ v, KeepsFixed (k v)) : KeepsFixed (x >>= k) := by
  intro w
  rw [bind_run, hk, hx]

theorem KeepsFixed.modify {g : Work δ → Work δ} (h : ∀ w, fixedBits (g w).f = fixedBits w.f) :
    KeepsFixed (modify g : CpuM δ Unit) := h

theorem orF_keepsFixed (p : Prop) [Decidable p] {m : Byte} (hm : fixedBits m = 0#8) :
    KeepsFixed (orF p m : CpuM δ Unit) := by
  refine .modify fun w => ?_
  split
  · exact fixedBits_set hm w.f
  · rfl

theorem flagZsp_keepsFixed (v : Byte) : KeepsFixed (flagZsp v : CpuM δ Unit) := by
  have hs : fixedBits (v &&& fS) = 0#8 := by
    rw [fixedBits, BitVec.and_assoc]
    exact BitVec.and_zero
  refine .bind (orF_keepsFixed _ (by decide)) fun _ => .bind ?_ fun _ =>
    orF_keepsFixed _ (by decide)
  exact .modify fun w => fixedBits_set hs w.f

theorem daaLow_keepsFixed : KeepsFixed (daaLow : CpuM δ Unit) := by
  have hac : fixedBits fAC = 0#8 := by decide
  intro w
  rw [daaLow, get_bind_run, get_bind_run, ite_run]
  split
  · exact fixedBits_set hac w.f
  · exact fixedBits_clear hac w.f

theorem daaHigh_keepsFixed (v : Byte) : KeepsFixed (daaHigh v : CpuM δ Byte) := by
  have hcy : fixedBits fCY = 0#8 := by decide
  intro w
  rw [daaHigh, get_bind_run, ite_run]
  split
  · exact fixedBits_set hcy w.f
  · exact fixedBits_clear hcy w.f

theorem daa_keepsFixed : KeepsFixed (daa : CpuM δ Unit) := by
  have hzsp : fixedBits (fZ ||| fS ||| fP) = 0#8 := by decide
  intro w
  rw [daa, get_bind_run, modify_bind_run, bind_run, bind_run, modify_bind_run, modify_bind_run,
    get_bind_run, flagZsp_keepsFixed]
  show fixedBits ((daaHigh _ _).2.f &&& ~~~(fZ ||| fS ||| fP)) = _
  rw [fixedBits_clear hzsp, daaHigh_keepsFixed, daaLow_keepsFixed]

theorem step_fixedBits (ports : Ports δ) (w : Work δ) :
    fixedBits (step ports w).2.f = strayAfter w.arch (fixedBits w.f) := by
  by_cases hdaa : decode (w.mem w.pc) = .daa
  · have hop : w.mem w.pc = 0x27#8 := eq_encode hdaa (by decide)
    have hrun : step ports w
        = brk daa { w with pc := w.pc + 1, op := w.mem w.pc } := by
      show switch ports (w.mem w.pc) { w with pc := w.pc + 1, op := w.mem w.pc } = _
      rw [hop]
      rfl
    rw [hrun, strayAfter]
    show fixedBits (daa _).2.f = (decode (w.mem w.pc)).leaves _ _
    rw [daa_keepsFixed, hdaa]
    rfl
  · have hexec : (step ports w).2.arch = (Isa.step coreAux ports w.arch).1 :=
      (step_refines ports w hdaa).1
    have hf : (step ports w).2.f = (Isa.step coreAux ports w.arch).1.f :=
      congrArg Isa.State.f hexec
    rw [hf]
    exact Isa.step_fixedBits coreAux ports w.arch hdaa

/-- The C core: bit 1 is set on the way out. -/
def core (ports : Ports δ) : Core δ (Work δ) where
  step := machine ports
  view := Work.arch
  sound := fun _ => True
  stored := fun f => f ||| 0x02#8
  keeps := fun w _ _ => ⟨trivial, step_fixedBits ports w⟩
  pushes := by
    intro w _ himm
    have himm' : w.mem w.pc = 0xf5#8 := himm
    have hdaa : decode (w.mem w.pc) ≠ .daa := by
      rw [himm']
      decide
    have hexec : (step ports w).2.arch = (Isa.step coreAux ports w.arch).1 :=
      (step_refines ports w hdaa).1
    show (step ports w).2.arch.top = _
    have hpush : decode w.arch.imm = .push .psw := by
      rw [himm]
      rfl
    rw [hexec, Isa.step, hpush]
    exact Function.update_self _ _ _

end Cpu8080

/-! ## The assembly core -/

namespace I8080

open Avr

/-- The registers that `i8080_run` loads from the work area, without SP. -/
def workRegs : List (Fin 32) :=
  [regA, regF, regB, regC, regD, regE, regH, regL, regPcH, regPcL]

/-- The registers loaded after `i8080_reset`, whatever the others hold. -/
def reset (s : Avr.State (Bus δ)) : Avr.State (Bus δ) :=
  { s with
    r := fun i => if i = regSpH ∨ i = regSpL then 0xff#8
      else if i ∈ workRegs ∨ i = r1 then 0#8 else s.r i }

theorem daaCorrect_keepsFixed (b : Nat) (k : Byte) {m : Byte} (hm : fixedBits m = 0#8)
    (s : Avr.State (Bus δ)) :
    (daaCorrect b k m s).2.r r1 = s.r r1
      ∧ fixedBits ((daaCorrect b k m s).2.r regF) = fixedBits (s.r regF) := by
  obtain ⟨s', hrun, hz, habs⟩ := daaCorrect_run b k m s rfl
  have hf := congrArg Isa.State.f habs
  rw [hrun]
  refine ⟨hz, ?_⟩
  show fixedBits (abs s').f = _
  rw [hf]
  dsimp only
  split
  · exact fixedBits_set hm _
  · exact fixedBits_clear hm _

theorem daaOp_keepsFixed (s : Avr.State (Bus δ)) (h : s.r r1 = 0#8) :
    (daaOp s).2.r r1 = 0#8 ∧ fixedBits ((daaOp s).2.r regF) = fixedBits (s.r regF) := by
  obtain ⟨s1, hs1⟩ : ∃ s1, s1 = (daaCorrect bAC 6#8 fAC
    (cpi regTmp1 10#8 (andi regTmp1 0x0f#8 (mov regTmp1 regA s).2).2).2).2 := ⟨_, rfl⟩
  obtain ⟨s2, hs2⟩ : ∃ s2, s2 = (daaCorrect bCY 96#8 fCY (cpi regA 160#8 s1).2).2 := ⟨_, rfl⟩
  obtain ⟨hz1, hf1⟩ : s1.r r1 = s.r r1 ∧ fixedBits (s1.r regF) = fixedBits (s.r regF) := by
    rw [hs1]
    exact daaCorrect_keepsFixed bAC 6#8 (by decide) _
  obtain ⟨hz2, hf2⟩ : s2.r r1 = s1.r r1 ∧ fixedBits (s2.r regF) = fixedBits (s1.r regF) := by
    rw [hs2]
    exact daaCorrect_keepsFixed bCY 96#8 (by decide) _
  have hrun : daaOp s
      = flagZsp (mov regTmp1 regA (andi regF (~~~(fZ ||| fS ||| fP)) s2).2).2 := by
    simp only [daaOp, bind_run, ← hs1, ← hs2]
  have hend := flagZsp_reaches (mov regTmp1 regA (andi regF (~~~(fZ ||| fS ||| fP)) s2).2).2
    (hz2.trans (hz1.trans h))
  rw [hrun]
  refine ⟨hend.zero, ?_⟩
  have hf : (flagZsp (mov regTmp1 regA (andi regF (~~~(fZ ||| fS ||| fP)) s2).2).2).2.r regF
      = s2.r regF &&& ~~~(fZ ||| fS ||| fP) ||| Isa.flagsOf (s2.r regA) false false :=
    congrArg Isa.State.f hend.stands
  rw [hf, fixedBits_set (fixedBits_flagsOf _ _ _), fixedBits_clear (by decide), hf2, hf1]

variable (env : Env δ)

/-- F goes to the stack as it is. -/
theorem pushPswOp_reaches (s : Avr.State (Bus δ)) (hz : s.r r1 = 0#8) :
    Reaches (pushPswOp env) s .fetchNext ((abs s).push (s.r regA) (s.r regF)) :=
  .bind rfl (.bind rfl (pushComp_reaches env _ hz))

theorem step_push {s : Avr.State (Bus δ)} (hz : s.r r1 = 0#8) (himm : (abs s).imm = 0xf5#8) :
    (step env s).1.r r1 = 0#8
      ∧ abs (step env s).1 = (abs s).next.push (s.r regA) (s.r regF) := by
  obtain ⟨s', hrun, habs, hz'⟩ := fetch_run env hz
  rw [himm] at hrun
  have hpush := pushPswOp_reaches env s' hz'
  have hstep : (step env s).1 = (pushPswOp env s').2 := congrArg Prod.snd hrun
  have ha : s'.r regA = s.r regA := congrArg Isa.State.a habs
  have hf : s'.r regF = s.r regF := congrArg Isa.State.f habs
  rw [hstep, hpush.stands, habs, ha, hf]
  exact ⟨hpush.zero, rfl⟩

/-- The two opcodes of `ownOpcodes` after which a run goes on, and the
others, which step as the instruction set does. -/
theorem step_fixedBits (s : Avr.State (Bus δ)) (hz : s.r r1 = 0#8)
    (hgo : (step env s).2 = false) :
    (step env s).1.r r1 = 0#8
      ∧ fixedBits ((step env s).1.r regF) = strayAfter (abs s) (fixedBits (s.r regF)) := by
  by_cases hown : (abs s).imm ∈ ownOpcodes
  · obtain ⟨s', hrun, habs, hz'⟩ := fetch_run env hz
    have hf : s'.r regF = s.r regF := congrArg Isa.State.f habs
    simp only [ownOpcodes, List.mem_cons, List.not_mem_nil, or_false] at hown
    rcases hown with hop | hop | hop
    · rw [hop] at hrun
      obtain ⟨hz2, hf2⟩ := daaOp_keepsFixed s' hz'
      have hstep : (step env s).1 = (daaOp s').2 := congrArg Prod.snd hrun
      rw [hstep, strayAfter, hop, ← hf]
      exact ⟨hz2, hf2⟩
    · obtain ⟨hz2, hpush⟩ := step_push env hz hop
      have hf2 : (step env s).1.r regF = s.r regF := congrArg Isa.State.f hpush
      rw [hf2, strayAfter, hop]
      exact ⟨hz2, rfl⟩
    · rw [hop] at hrun
      have hstop : (step env s).2 = true := by
        rw [step, hrun]
        rfl
      rw [hstop] at hgo
      contradiction
  · obtain ⟨hexec, -, hz'⟩ := step_refines env s hz hown
    have hf : (step env s).1.r regF = (Isa.step coreAux env.ports (abs s)).1.f :=
      congrArg Isa.State.f hexec
    refine ⟨hz', ?_⟩
    rw [hf]
    exact Isa.step_fixedBits coreAux env.ports (abs s) (decode_of_not_own _ hown).1

/-- The assembly core: nothing is set on the way out. -/
def core : Core δ (Avr.State (Bus δ)) where
  step := step env
  view := abs
  sound := fun s => s.r r1 = 0#8
  stored := fun f => f
  keeps := step_fixedBits env
  pushes := by
    intro s hz himm
    rw [(step_push env hz himm).2]
    exact Function.update_self _ _ _

end I8080

/-! ## From a reset -/

/-- The format holds of every byte a PUSH PSW stores exactly when, at
every PUSH PSW, the last instruction that loaded F or computed all of it
left bits 3 and 5 clear (C core), or left bit 1 set and both clear
(assembly core). -/
theorem push_format_iff (env : I8080.Env δ) (w : Cpu8080.Work δ) (s : Avr.State (I8080.Bus δ)) :
    (PushesFormat (Cpu8080.machine env.ports) Cpu8080.Work.arch (Cpu8080.reset w).2 ↔
        ∀ n, PushesPsw (Cpu8080.machine env.ports) Cpu8080.Work.arch (Cpu8080.reset w).2 n →
          strayBits (Cpu8080.machine env.ports) Cpu8080.Work.arch (Cpu8080.reset w).2 n
            &&& 0x28#8 = 0#8)
      ∧ (PushesFormat (I8080.step env) I8080.abs (I8080.reset s) ↔
        ∀ n, PushesPsw (I8080.step env) I8080.abs (I8080.reset s) n →
          strayBits (I8080.step env) I8080.abs (I8080.reset s) n = 0x02#8) := by
  constructor
  · refine forall_congr' fun n => imp_congr_right fun hn => ?_
    have hclear : ((Cpu8080.core env.ports).view (Cpu8080.reset w).2).f = 0#8 := rfl
    obtain ⟨f, hbits, hstored⟩ :=
      (Cpu8080.core env.ports).pushedFlags_eq trivial hclear hn
    have hor : pushedFlags (Cpu8080.machine env.ports) Cpu8080.Work.arch (Cpu8080.reset w).2 n
        = f ||| 0x02#8 := hstored
    rw [hor, flagFormat_or_iff, hbits]
    rfl
  · refine forall_congr' fun n => imp_congr_right fun hn => ?_
    have hsound : (I8080.core env).sound (I8080.reset s) := rfl
    have hclear : ((I8080.core env).view (I8080.reset s)).f = 0#8 := rfl
    obtain ⟨f, hbits, hstored⟩ := (I8080.core env).pushedFlags_eq hsound hclear hn
    have has : pushedFlags (I8080.step env) I8080.abs (I8080.reset s) n = f := hstored
    rw [has, flagFormat_iff, hbits]
    rfl

/-- POP PSW, PUSH PSW, with FFh under the stack pointer of a reset. -/
def popPush : Mem := fun addr =>
  if addr = 0x0000#16 then 0xf1#8 else if addr = 0x0001#16 then 0xf5#8 else 0xff#8

/-- Neither core keeps the format: the C core hands FFh on, and the
assembly core stores 00h in its first instruction. -/
theorem push_format_fails :
    ¬ PushesFormat (Cpu8080.machine .idle) Cpu8080.Work.arch
        (Cpu8080.reset (Cpu8080.Work.cold popPush)).2
      ∧ ¬ PushesFormat (I8080.step .idle) I8080.abs
        (I8080.reset (I8080.cold fun _ => 0xf5#8)) := by
  constructor
  · intro h
    obtain ⟨-, hbit3, -⟩ := h 1 ⟨rfl, rfl⟩
    have hstored : pushedFlags (Cpu8080.machine .idle) Cpu8080.Work.arch
        (Cpu8080.reset (Cpu8080.Work.cold popPush)).2 1 = 0xff#8 := rfl
    rw [hstored] at hbit3
    contradiction
  · intro h
    obtain ⟨hbit1, -, -⟩ := h 0 ⟨rfl, rfl⟩
    have hstored : pushedFlags (I8080.step .idle) I8080.abs
        (I8080.reset (I8080.cold fun _ => 0xf5#8)) 0 = 0x00#8 := rfl
    rw [hstored] at hbit1
    contradiction

end CpMega88
