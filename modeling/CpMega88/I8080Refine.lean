import Mathlib.Tactic.FinCases
import CpMega88.I8080Tails

/-!
# The assembly core implements the instruction set

The handlers, one constructor of `Isa.Instr` at a time, each looked up
in the jump table under the instruction's opcode (`HandlerOk`). Three
instructions are not among them: DAA, which the core computes
differently, PUSH PSW, which stores the flags as they are, and HLT,
which steps back onto itself.

`step_refines` then puts the fetch in front: the table is entered at the
opcode PC points to, wherever the linker put the table.
-/

namespace CpMega88

open Bytes Avr Runs

namespace I8080

open Isa (Instr Reg Pair StackPair IndexPair Cond AluOp RotOp)

variable {δ : Type} (env : Env δ)

/-- The table entry for an opcode. -/
def entry (op : Byte) : AsmM δ Exit := (decode env).getD op.toNat invOp

/-- The handler of `i` goes on to the next instruction with the effect
of `i`. -/
def HandlerOk (i : Instr) : Prop :=
  ∀ s, s.r r1 = 0#8 → Reaches (entry env (Isa.encode i)) s .fetchNext
    (Isa.exec Isa.coreAux env.ports i (abs s))

theorem HandlerOk.of {env : Env δ} {i : Instr} {x : AsmM δ Exit}
    (hx : entry env (Isa.encode i) = x)
    (h : ∀ s, s.r r1 = 0#8 →
      Reaches x s .fetchNext (Isa.exec Isa.coreAux env.ports i (abs s))) :
    HandlerOk env i := fun s hs => by
  rw [hx]
  exact h s hs

/-! ## Moves -/

theorem entry_mov {dst src : Reg} (hd : dst ≠ .m) (hs : src ≠ .m) :
    entry env (Isa.encode (.mov dst src))
      = if dst = src then fetchNext else movOp (reg dst) (reg src) := by
  cases dst <;> cases src <;> first | exact absurd rfl hd | exact absurd rfl hs | rfl

theorem entry_mov_r_m {dst : Reg} (hd : dst ≠ .m) :
    entry env (Isa.encode (.mov dst .m)) = movRMOp (reg dst) := by
  cases dst <;> first | exact absurd rfl hd | rfl

theorem entry_mov_m_r {src : Reg} (hs : src ≠ .m) :
    entry env (Isa.encode (.mov .m src)) = movMROp env (reg src) := by
  cases src <;> first | exact absurd rfl hs | rfl

theorem mov_ok (dst src : Reg) (h : ¬(dst = .m ∧ src = .m)) : HandlerOk env (.mov dst src) := by
  by_cases hd : dst = .m
  · have hs : src ≠ .m := fun hs => h ⟨hd, hs⟩
    subst hd
    refine .of (entry_mov_m_r env hs) fun s hz => ⟨rfl, ?_, hz⟩
    rw [Isa.exec, get_abs s hs]
    rfl
  · by_cases hs : src = .m
    · subst hs
      refine .of (entry_mov_r_m env hd) fun s hz => ⟨rfl, ?_, (zero_setReg _ dst _).trans hz⟩
      exact abs_setReg _ hd _
    · refine .of (entry_mov env hd hs) fun s hz => ?_
      by_cases heq : dst = src
      · rw [if_pos heq, Isa.exec, get_abs s hs, ← abs_setReg s hd, heq, Avr.State.set_self]
        exact fetchNext_reaches s hz
      · rw [if_neg heq, Isa.exec, get_abs s hs, ← abs_setReg s hd]
        exact ⟨rfl, rfl, (zero_setReg s dst _).trans hz⟩

theorem xchg_ok : HandlerOk env .xchg := fun _ hz => ⟨rfl, rfl, hz⟩

theorem ldax_ok (rp : IndexPair) : HandlerOk env (.ldax rp) := by
  cases rp <;> exact fun _ hz => ⟨rfl, rfl, hz⟩

theorem stax_ok (rp : IndexPair) : HandlerOk env (.stax rp) := by
  cases rp <;> exact fun _ hz => ⟨rfl, rfl, hz⟩

/-! ## Operand bytes -/

/-- A handler that fetches one operand byte: what follows starts in a
state that stands for the next one, with the byte in `reg_mem_r`. -/
theorem Reaches.fetch {k : AsmM δ Exit} {s : Avr.State (Bus δ)} {e : Exit} {t : Isa.State δ}
    (hz : s.r r1 = 0#8)
    (hk : ∀ s', abs s' = (abs s).next → s'.r regMemR = (abs s).imm → s'.r r1 = 0#8 →
      KeepsBut [regMemR, regTmp1, regPcL, regPcH] s s' → s'.stack = s.stack →
      Reaches k s' e t) :
    Reaches (do fetchOp; k) s e t := by
  obtain ⟨s', hrun, habs, himm, hstack, hkeep⟩ := fetchOp_run s
  exact .bind hrun (hk s' habs himm ((hkeep r1 (by decide)).trans hz) hkeep hstack)

theorem entry_mvi {dst : Reg} (hd : dst ≠ .m) :
    entry env (Isa.encode (.mvi dst)) = mviOp (reg dst) := by
  cases dst <;> first | exact absurd rfl hd | rfl

theorem mvi_ok (dst : Reg) : HandlerOk env (.mvi dst) := by
  by_cases hd : dst = .m
  · subst hd
    refine .of (rfl : _ = mviMOp env) fun s hz => .fetch hz fun s' habs himm hz' _ _ => ?_
    refine .bind rfl (.of_eq (fetchNext_reaches _ hz') ?_)
    have hstore : abs (storeHl env s').2 = (abs s').store (abs s').hl (s'.r regMemR) := rfl
    rw [habs, himm] at hstore
    exact hstore
  · refine .of (entry_mvi env hd) fun s hz => .fetch hz fun s' habs himm hz' _ _ => ?_
    refine .bind rfl (.of_eq (fetchNext_reaches _ ((zero_setReg s' dst _).trans hz')) ?_)
    exact (abs_setReg s' hd _).trans (by rw [habs, himm]; rfl)

/-- The idiom of the two-byte operands: the low byte waits in `reg_mem_l`
while the high one is fetched. -/
theorem Reaches.fetch2 {k : AsmM δ Exit} {s : Avr.State (Bus δ)} {e : Exit} {t : Isa.State δ}
    (hz : s.r r1 = 0#8)
    (hk : ∀ s', abs s' = (abs s).next.next → s'.pair regMemH regMemL = (abs s).imm16 →
      s'.r r1 = 0#8 → Reaches k s' e t) :
    Reaches (do
      fetchOp
      mov regMemL regMemR
      fetchOp
      mov regMemH regMemR
      k) s e t := by
  refine .fetch hz fun s₁ habs₁ himm₁ hz₁ _ _ => .bind rfl (.fetch hz₁
    fun s₂ habs₂ himm₂ hz₂ hkeep₂ _ => .bind rfl (hk _ ?_ ?_ hz₂))
  · exact habs₂.trans (congrArg Isa.State.next habs₁)
  · have hlo : s₂.r regMemL = s₁.r regMemR := hkeep₂ regMemL (by decide)
    have hhi : s₂.r regMemR = (abs s₁).imm := himm₂
    rw [habs₁] at hhi
    exact congrArg₂ word hhi (hlo.trans himm₁)

theorem lda_ok : HandlerOk env .lda := by
  refine .of (rfl : _ = ldaOp) fun s hz => .fetch2 hz fun s' habs hpair hz' => ?_
  refine .bind rfl (.bind rfl (.of_eq (fetchNext_reaches _ hz') ?_))
  have hload : abs (mov regA regMemR (load s').2).2
      = { abs s' with a := (abs s').mem (s'.pair regMemH regMemL) } := rfl
  rw [habs, hpair] at hload
  exact hload

theorem sta_ok : HandlerOk env .sta := by
  refine .of (rfl : _ = staOp env) fun s hz => .fetch2 hz fun s' habs hpair hz' => ?_
  refine .bind rfl (.bind rfl (.of_eq (fetchNext_reaches _ hz') ?_))
  have hstore : abs (store env (mov regMemR regA s').2).2
      = (abs s').store (s'.pair regMemH regMemL) (abs s').a := rfl
  rw [habs, hpair] at hstore
  exact hstore

/-- The address in `reg_mem` plus one, by `ldi`, `add`, `adc`. -/
theorem incMem_run (s : Avr.State (Bus δ)) (hz : s.r r1 = 0#8) (ht : s.r regTmp1 = 1#8) :
    ∃ f, adc regMemH r1 (add regMemL regTmp1 s).2
      = ((), (s.setPair regMemH regMemL (s.pair regMemH regMemL + 1)).setSreg f) :=
  addConst_run s 1#8 (by decide) (by decide) hz ht

theorem lhld_ok : HandlerOk env .lhld := by
  refine .of (rfl : _ = lhldOp) fun s hz => .fetch2 hz fun s' habs hpair hz' => ?_
  obtain ⟨f, hf⟩ := incMem_run (ldi regTmp1 1#8 (mov regL regMemR (load s').2).2).2 hz' rfl
  refine .bind rfl (.bind rfl (.bind rfl (.bind rfl (.bind hf (.bind rfl (.bind rfl
    (.of_eq (fetchNext_reaches _ hz') ?_)))))))
  have hexec : Isa.exec Isa.coreAux env.ports .lhld (abs s)
      = { abs s' with
          l := (abs s').mem (s'.pair regMemH regMemL)
          h := (abs s').mem (word (hiByte (s'.pair regMemH regMemL + 1))
            (loByte (s'.pair regMemH regMemL + 1))) } := by
    rw [habs, hpair, word_hiByte_loByte]
    rfl
  rw [hexec]
  rfl

/-- The second half of `shld_op`. -/
theorem storeH_reaches (s : Avr.State (Bus δ)) (hz : s.r r1 = 0#8) :
    Reaches (do
      ldi regTmp1 1#8
      add regMemL regTmp1
      adc regMemH r1
      mov regMemR regH
      store env
      fetchNext) s .fetchNext
      ((abs s).store (s.pair regMemH regMemL + 1) (abs s).h) := by
  obtain ⟨f, hf⟩ := incMem_run (ldi regTmp1 1#8 s).2 hz rfl
  refine .bind rfl (.bind rfl (.bind hf (.bind rfl (.bind rfl
    (.of_eq (fetchNext_reaches _ hz) ?_)))))
  rw [← word_hiByte_loByte (s.pair regMemH regMemL + 1)]
  rfl

theorem shld_ok : HandlerOk env .shld := by
  refine .of (rfl : _ = shldOp env) fun s hz => .fetch2 hz fun s' habs hpair hz' => ?_
  refine .bind rfl (.bind rfl (.of_eq (storeH_reaches env _ hz') ?_))
  have hexec : Isa.exec Isa.coreAux env.ports .shld (abs s)
      = ((abs s').store (s'.pair regMemH regMemL) (abs s').l).store
          (s'.pair regMemH regMemL + 1) (abs s').h := by
    rw [habs, hpair]
    rfl
  rw [hexec]
  rfl

/-- The second half of `xthl_op`. -/
theorem swapH_reaches (s : Avr.State (Bus δ)) (hz : s.r r1 = 0#8) :
    Reaches (do
      ldi regTmp1 1#8
      add regMemL regTmp1
      adc regMemH r1
      load
      mov regTmp1 regH
      mov regH regMemR
      mov regMemR regTmp1
      store env
      fetchNext) s .fetchNext
      { (abs s).store (s.pair regMemH regMemL + 1) (abs s).h with
        h := (abs s).mem (s.pair regMemH regMemL + 1) } := by
  obtain ⟨f, hf⟩ := incMem_run (ldi regTmp1 1#8 s).2 hz rfl
  refine .bind rfl (.bind rfl (.bind hf (.bind rfl (.bind rfl (.bind rfl (.bind rfl (.bind rfl
    (.of_eq (fetchNext_reaches _ hz) ?_))))))))
  rw [← word_hiByte_loByte (s.pair regMemH regMemL + 1)]
  rfl

theorem xthl_ok : HandlerOk env .xthl := by
  refine .of (rfl : _ = xthlOp env) fun s hz => .bind rfl (.bind rfl (.bind rfl (.bind rfl
    (.bind rfl (.bind rfl (.bind rfl (.of_eq (swapH_reaches env _ hz) ?_)))))))
  have htop : (abs s).mem ((abs s).sp + 1)
      = Function.update (abs s).mem (abs s).sp (abs s).l ((abs s).sp + 1) :=
    (Function.update_of_ne (add_one_ne _) _ _).symm
  rw [Isa.exec, Isa.State.top2, htop]
  rfl

/-! ## The stack -/

theorem storeSp_abs (s : Avr.State (Bus δ)) :
    abs (storeSp env s).2 = (abs s).store (abs s).sp (s.r regMemR) := rfl

/-- `push_comp` pushes `reg_mem_r` over `reg_mem_l`. -/
theorem pushComp_reaches (s : Avr.State (Bus δ)) (hz : s.r r1 = 0#8) :
    Reaches (pushComp env) s .fetchNext ((abs s).push (s.r regMemR) (s.r regMemL)) := by
  obtain ⟨s₁, hs₁, habs₁, hk₁⟩ := decSp_run (ldi regTmp2 1#8 s).2 hz rfl
  obtain ⟨s₂, hs₂, habs₂, hk₂⟩ := decSp_run (storeSp env s₁).2
    ((hk₁ r1 (by decide)).trans hz) (hk₁ regTmp2 (by decide))
  have hz₂ : s₂.r r1 = 0#8 := (hk₂ r1 (by decide)).trans ((hk₁ r1 (by decide)).trans hz)
  refine .bind rfl (.bind rfl (.bind hs₁ (.bind rfl (.bind rfl (.bind hs₂ (.bind rfl (.bind rfl
    (.of_eq (fetchNext_reaches _ hz₂) ?_))))))))
  have hhi : s₁.r regMemR = s.r regMemR := hk₁ regMemR (by decide)
  have hlo : s₂.r regMemL = s.r regMemL :=
    (hk₂ regMemL (by decide)).trans (hk₁ regMemL (by decide))
  have hstore : abs (storeSp env (mov regMemR regMemL s₂).2).2
      = (abs s₂).store (abs s₂).sp (s₂.r regMemL) := rfl
  rw [habs₂, storeSp_abs env s₁, habs₁, hhi, hlo] at hstore
  exact hstore

theorem entry_push {rp : StackPair} (hrp : rp ≠ .psw) (s : Avr.State (Bus δ)) :
    entry env (Isa.encode (.push rp)) s
      = pushComp env ((s.set regMemL ((abs s).getStackPair rp).2).set regMemR
          ((abs s).getStackPair rp).1) := by
  cases rp <;> first | exact absurd rfl hrp | rfl

theorem push_ok (rp : StackPair) (hrp : rp ≠ .psw) : HandlerOk env (.push rp) := by
  intro s hz
  obtain ⟨hexit, hstands, hzero⟩ := pushComp_reaches env
    ((s.set regMemL ((abs s).getStackPair rp).2).set regMemR ((abs s).getStackPair rp).1) hz
  rw [← entry_push env hrp s] at hexit hstands hzero
  exact ⟨hexit, hstands, hzero⟩

/-- `pop_start` pops into `reg_mem_r` and `reg_mem_l`. -/
theorem popStart_run (s : Avr.State (Bus δ)) (hz : s.r r1 = 0#8) :
    ∃ s', popStart s = ((), s') ∧ abs s' = (abs s).drop2 ∧ s'.r regMemL = (abs s).top
      ∧ s'.r regMemR = (abs s).top2 ∧ s'.r r1 = 0#8 := by
  obtain ⟨s₁, hs₁, habs₁, hk₁⟩ := incSp_run (ldi regTmp2 1#8
    (mov regMemL regMemR (loadSp s).2).2).2 hz rfl
  obtain ⟨s₂, hs₂, habs₂, hk₂⟩ := incSp_run (loadSp s₁).2
    ((hk₁ r1 (by decide)).trans hz) (hk₁ regTmp2 (by decide))
  have habs₂' : abs s₂ = { abs s₁ with sp := (abs s₁).sp + 1 } := habs₂
  have htop2 : s₂.r regMemR = (abs s₁).mem (abs s₁).sp := hk₂ regMemR (by decide)
  rw [habs₁] at habs₂' htop2
  have hrun : popStart s = adc regSpH r1 (add regSpL regTmp2 (loadSp
      (adc regSpH r1 (add regSpL regTmp2 (ldi regTmp2 1#8
        (mov regMemL regMemR (loadSp s).2).2).2).2).2).2).2 := rfl
  rw [hs₁] at hrun
  exact ⟨s₂, hrun.trans hs₂, habs₂', (hk₂ regMemL (by decide)).trans (hk₁ regMemL (by decide)),
    htop2, (hk₂ r1 (by decide)).trans ((hk₁ r1 (by decide)).trans hz)⟩

theorem pop_ok (rp : StackPair) : HandlerOk env (.pop rp) := by
  intro s hz
  obtain ⟨s', hrun, habs, hlo, hhi, hz'⟩ := popStart_run s hz
  have hexec : Isa.exec Isa.coreAux env.ports (.pop rp) (abs s)
      = (abs s').setStackPair rp (s'.r regMemR) (s'.r regMemL) := by
    rw [habs, hlo, hhi]
    rfl
  rw [hexec]
  cases rp <;> exact .bind hrun (.bind rfl (.bind rfl (fetchNext_reaches _ hz')))

theorem retOp_reaches (s : Avr.State (Bus δ)) (hz : s.r r1 = 0#8) :
    Reaches retOp s .fetchNext (Isa.execRet (abs s)) := by
  obtain ⟨s₁, hs₁, habs₁, hk₁⟩ := incSp_run (ldi regTmp2 1#8
    (mov regPcL regMemR (loadSp s).2).2).2 hz rfl
  obtain ⟨s₂, hs₂, habs₂, hk₂⟩ := incSp_run (mov regPcH regMemR (loadSp s₁).2).2
    ((hk₁ r1 (by decide)).trans hz) (hk₁ regTmp2 (by decide))
  have hz₂ : s₂.r r1 = 0#8 := (hk₂ r1 (by decide)).trans ((hk₁ r1 (by decide)).trans hz)
  refine .bind rfl (.bind rfl (.bind rfl (.bind rfl (.bind hs₁ (.bind rfl (.bind rfl (.bind rfl
    (.bind hs₂ (.of_eq (fetchNext_reaches _ hz₂) ?_)))))))))
  have hlo : s₁.r regPcL = (abs s).top := hk₁ regPcL (by decide)
  have hpc : abs (mov regPcH regMemR (loadSp s₁).2).2
      = { abs s₁ with pc := word ((abs s₁).mem (abs s₁).sp) (s₁.r regPcL) } := rfl
  rw [habs₂, hpc, habs₁, hlo]
  rfl

theorem rstOp_reaches (addr : Byte) (s : Avr.State (Bus δ)) (hz : s.r r1 = 0#8) :
    Reaches (rstOp env addr) s .fetchNext
      (Isa.jumpTo ((abs s).push (hiByte (abs s).pc) (loByte (abs s).pc)) (word 0#8 addr)) := by
  have hhi : hiByte (abs s).pc = s.r regPcH := hiByte_word _ _
  have hlo : loByte (abs s).pc = s.r regPcL := loByte_word _ _
  have hpc : abs (mov regPcL regTmp1 (mov regPcH r1 (mov regMemR regPcH (mov regMemL regPcL
      (ldi regTmp1 addr s).2).2).2).2).2 = { abs s with pc := word 0#8 addr } :=
    congrArg (fun z => { abs s with pc := word z addr }) hz
  rw [hhi, hlo]
  exact .bind rfl (.bind rfl (.bind rfl (.bind rfl (.bind rfl (.of_eq (pushComp_reaches env _ hz)
    (congrArg (fun t => t.push (s.r regPcH) (s.r regPcL)) hpc))))))

theorem rst_ok (n : Fin 8) : HandlerOk env (.rst n) := by
  fin_cases n <;> exact fun s hz => rstOp_reaches env _ s hz

theorem callOp_reaches (s : Avr.State (Bus δ)) (hz : s.r r1 = 0#8) :
    Reaches (callOp env) s .fetchNext (Isa.execCall (abs s)) := by
  refine .fetch2 hz fun s' habs hpair hz' => ?_
  obtain ⟨s₁, hs₁, habs₁, hk₁⟩ := decSp_run (ldi regTmp2 1#8 s').2 hz' rfl
  obtain ⟨s₂, hs₂, habs₂, hk₂⟩ := decSp_run (storeSp env (mov regMemR regPcH s₁).2).2
    ((hk₁ r1 (by decide)).trans hz') (hk₁ regTmp2 (by decide))
  have hz₂ : s₂.r r1 = 0#8 := (hk₂ r1 (by decide)).trans ((hk₁ r1 (by decide)).trans hz')
  refine .bind rfl (.bind rfl (.bind hs₁ (.bind rfl (.bind rfl (.bind rfl (.bind hs₂ (.bind rfl
    (.bind rfl (.bind rfl (.bind rfl (.of_eq (fetchNext_reaches _ hz₂) ?_)))))))))))
  have hpcH : s₁.r regPcH = hiByte (abs s').pc :=
    (hk₁ regPcH (by decide)).trans (hiByte_word _ _).symm
  have hpcL : s₂.r regPcL = loByte (abs s').pc :=
    ((hk₂ regPcL (by decide)).trans (hk₁ regPcL (by decide))).trans (loByte_word _ _).symm
  have haddr : s₂.pair regMemH regMemL = (abs s).imm16 :=
    (congrArg₂ word ((hk₂ regMemH (by decide)).trans (hk₁ regMemH (by decide)))
      ((hk₂ regMemL (by decide)).trans (hk₁ regMemL (by decide)))).trans hpair
  have hstore₁ : abs (storeSp env (mov regMemR regPcH s₁).2).2
      = (abs s₁).store (abs s₁).sp (s₁.r regPcH) := rfl
  have hstore₂ : abs (mov regPcH regMemH (mov regPcL regMemL
        (storeSp env (mov regMemR regPcL s₂).2).2).2).2
      = { (abs s₂).store (abs s₂).sp (s₂.r regPcL) with pc := s₂.pair regMemH regMemL } := rfl
  rw [habs₂, hstore₁, habs₁, hpcH, hpcL, haddr] at hstore₂
  refine hstore₂.trans ?_
  rw [show abs (ldi regTmp2 1#8 s').2 = abs s' from rfl, habs]
  rfl

/-! ## Jumps -/

theorem pchl_ok : HandlerOk env .pchl := fun _ hz => ⟨rfl, rfl, hz⟩

theorem sphl_ok : HandlerOk env .sphl := fun _ hz => ⟨rfl, rfl, hz⟩

theorem ret_ok : HandlerOk env .ret := retOp_reaches

theorem call_ok : HandlerOk env .call := callOp_reaches env

theorem jmpOp_reaches (s : Avr.State (Bus δ)) (hz : s.r r1 = 0#8) :
    Reaches jmpOp s .fetchNext (Isa.execJmp (abs s)) := by
  refine .fetch hz fun s₁ habs₁ himm₁ hz₁ _ _ => .bind rfl (.fetch hz₁
    fun s₂ habs₂ himm₂ hz₂ hk₂ _ => .bind rfl (.bind rfl (.of_eq (fetchNext_reaches _ hz₂) ?_)))
  have hlo : s₂.r regTmp2 = s₁.r regMemR := hk₂ regTmp2 (by decide)
  have hhi : s₂.r regMemR = (abs s₁).imm := himm₂
  have habs : abs s₂ = (abs s).next.next := habs₂.trans (congrArg Isa.State.next habs₁)
  have hpc : abs (mov regPcL regTmp2 (mov regPcH regMemR s₂).2).2
      = { abs s₂ with pc := word (s₂.r regMemR) (s₂.r regTmp2) } := rfl
  rw [hlo, hhi, himm₁, habs, habs₁] at hpc
  exact hpc

theorem jmp_ok : HandlerOk env .jmp := jmpOp_reaches

theorem skipOperand_reaches (s : Avr.State (Bus δ)) (hz : s.r r1 = 0#8) :
    Reaches skipOperand s .fetchNext (abs s).next.next := by
  have htmp : (ldi regTmp1 2#8 s).2.r regTmp1 = 2#8 := rfl
  obtain ⟨f, hf⟩ := addConst_run (ldi regTmp1 2#8 s).2 2#8 (by decide : regPcH ≠ regPcL)
    (by decide) hz htmp
  refine .bind rfl (.bind rfl (.bind hf (.of_eq (fetchNext_reaches _ hz) ?_)))
  have hpc : (abs s).pc + word 0#8 2#8 = (abs s).pc + 1 + 1 := by
    rw [BitVec.add_assoc]
    rfl
  exact (abs_setPc _ _).trans (congrArg (fun pc => { abs s with pc := pc }) hpc)

/-- What a handler that tests bit `b` of F does, by the bit. -/
theorem onBit_reaches {b : Nat} {s : Avr.State (Bus δ)} {c : Bool} {x y : AsmM δ Exit}
    {t u : Isa.State δ} (hb : (s.r regF).getLsbD b = c) (hx : Reaches x s .fetchNext t)
    (hy : Reaches y s .fetchNext u) :
    Reaches (do if ← bit regF b then x else y) s .fetchNext (if c then t else u) := by
  refine .branch rfl (fun h => ?_) (fun h => ?_)
  · rw [← hb, if_pos h]
    exact hx
  · rw [← hb, if_neg (Bool.eq_false_iff.mp h)]
    exact hy

theorem retIf_ok (cc : Cond) : HandlerOk env (.retIf cc) := by
  intro s hz
  have hret := retOp_reaches s hz
  have hgo := fetchNext_reaches s hz
  cases cc with
  | nz | nc | po | p =>
      rw [Isa.exec, Cond.holds, ← Bool.cond_eq_ite, Bool.cond_not, Bool.cond_eq_ite]
      exact onBit_reaches rfl hgo hret
  | z | c | pe | m => exact onBit_reaches rfl hret hgo

theorem jmpIf_ok (cc : Cond) : HandlerOk env (.jmpIf cc) := by
  intro s hz
  have hjmp := jmpOp_reaches s hz
  have hskip := skipOperand_reaches s hz
  cases cc with
  | nz | nc | po | p =>
      rw [Isa.exec, Cond.holds, ← Bool.cond_eq_ite, Bool.cond_not, Bool.cond_eq_ite]
      exact onBit_reaches rfl hskip hjmp
  | z | c | pe | m => exact onBit_reaches rfl hjmp hskip

theorem callIf_ok (cc : Cond) : HandlerOk env (.callIf cc) := by
  intro s hz
  have hcall := callOp_reaches env s hz
  have hskip := skipOperand_reaches s hz
  cases cc with
  | nz | nc | po | p =>
      rw [Isa.exec, Cond.holds, ← Bool.cond_eq_ite, Bool.cond_not, Bool.cond_eq_ite]
      exact onBit_reaches rfl hskip hcall
  | z | c | pe | m => exact onBit_reaches rfl hcall hskip

/-! ## Devices -/

theorem output_ok : HandlerOk env .output := by
  refine .of (rfl : _ = outOp env) fun s hz => .fetch hz fun s' habs himm hz' _ _ => ?_
  have hexec : Isa.exec Isa.coreAux env.ports .output (abs s)
      = { abs s' with
          mem := (env.ports.output (s'.r regMemR) (abs s').a (abs s').mem (abs s').dev).1
          dev := (env.ports.output (s'.r regMemR) (abs s').a (abs s').mem (abs s').dev).2
          calls := .output (s'.r regMemR) (abs s').a :: (abs s').calls } := by
    rw [habs, himm]
    rfl
  rw [hexec]
  exact .bind rfl (.bind rfl (.bind rfl (.bind rfl (.bind rfl (fetchNext_reaches _ hz')))))

theorem input_ok : HandlerOk env .input := by
  refine .of (rfl : _ = inOp env) fun s hz => .fetch hz fun s' habs himm hz' _ _ => ?_
  have hexec : Isa.exec Isa.coreAux env.ports .input (abs s)
      = { abs s' with
          a := (env.ports.input (s'.r regMemR) (abs s').mem (abs s').dev).1
          mem := (env.ports.input (s'.r regMemR) (abs s').mem (abs s').dev).2.1
          dev := (env.ports.input (s'.r regMemR) (abs s').mem (abs s').dev).2.2
          calls := .input (s'.r regMemR)
            (env.ports.input (s'.r regMemR) (abs s').mem (abs s').dev).1 :: (abs s').calls } := by
    rw [habs, himm]
    rfl
  rw [hexec]
  exact .bind rfl (.bind rfl (.bind rfl (.bind rfl (.bind rfl (fetchNext_reaches _ hz')))))

/-! ## Sixteen-bit arithmetic -/

theorem entry_inx (rp : Pair) :
    entry env (Isa.encode (.inx rp)) = inxOp (hiReg rp) (loReg rp) := by
  cases rp <;> rfl

theorem entry_dcx (rp : Pair) :
    entry env (Isa.encode (.dcx rp)) = dcxOp (hiReg rp) (loReg rp) := by
  cases rp <;> rfl

theorem entry_dad (rp : Pair) :
    entry env (Isa.encode (.dad rp)) = dadOp (hiReg rp) (loReg rp) := by
  cases rp <;> rfl

theorem entry_lxi (rp : Pair) :
    entry env (Isa.encode (.lxi rp)) = lxiOp (hiReg rp) (loReg rp) := by
  cases rp <;> rfl

theorem zero_setPair (s : Avr.State (Bus δ)) (rp : Pair) (w : Word) :
    (s.setPair (hiReg rp) (loReg rp) w).r r1 = s.r r1 := by
  cases rp <;> rfl

theorem inx_ok (rp : Pair) : HandlerOk env (.inx rp) := by
  refine .of (entry_inx env rp) fun s hz => ?_
  have htmp : (ldi regTmp1 1#8 s).2.r regTmp1 = 1#8 := rfl
  obtain ⟨f, hf⟩ := addConst_run (ldi regTmp1 1#8 s).2 1#8 (hiReg_ne_loReg rp rp)
    (r1_ne_loReg rp) hz htmp
  refine .bind rfl (.bind rfl (.bind hf (.of_eq (fetchNext_reaches _ ?_) ?_)))
  · exact (zero_setPair _ rp _).trans hz
  · refine (abs_setPair _ rp _).trans ?_
    rw [← getPair_abs]
    rfl

theorem dcx_ok (rp : Pair) : HandlerOk env (.dcx rp) := by
  refine .of (entry_dcx env rp) fun s hz => ?_
  have htmp : (ldi regTmp1 1#8 s).2.r regTmp1 = 1#8 := rfl
  obtain ⟨f, hf⟩ := subConst_run (ldi regTmp1 1#8 s).2 1#8 (hiReg_ne_loReg rp rp)
    (r1_ne_loReg rp) hz htmp
  refine .bind rfl (.bind rfl (.bind hf (.of_eq (fetchNext_reaches _ ?_) ?_)))
  · exact (zero_setPair _ rp _).trans hz
  · refine (abs_setPair _ rp _).trans ?_
    rw [← getPair_abs]
    rfl

/-- The end of `dad`, `ral` and `rar`: C is copied to F. CBR leaves it
alone. -/
theorem carryToF_reaches (s : Avr.State (Bus δ)) (hz : s.r r1 = 0#8) :
    Reaches (do
      cbr regF fCY
      sbrIf flagC fCY
      fetchNext) s .fetchNext { abs s with f := Isa.setCY (s.r regF) s.sreg.c } := by
  obtain ⟨f, hf⟩ := sbrIf_run flagC fCY (cbr regF fCY s).2 s.sreg.c rfl
  exact .bind rfl (.bind hf (fetchNext_reaches _ hz))

theorem dad_ok (rp : Pair) : HandlerOk env (.dad rp) := by
  refine .of (entry_dad env rp) fun s hz => ?_
  obtain ⟨f, hc, hf⟩ := add_adc_run s (by decide : regH ≠ regL) (hiReg_ne_loReg rp .hl)
  have hsum : BitVec.ofNat 16 ((abs s).hl.toNat + ((abs s).getPair rp).toNat)
      = s.pair regH regL + s.pair (hiReg rp) (loReg rp) := by
    rw [getPair_abs, BitVec.ofNat_add, BitVec.ofNat_toNat, BitVec.ofNat_toNat, BitVec.setWidth_eq,
      BitVec.setWidth_eq]
    rfl
  have hexec : Isa.exec Isa.coreAux env.ports (.dad rp) (abs s)
      = { abs s with
          h := hiByte (s.pair regH regL + s.pair (hiReg rp) (loReg rp))
          l := loByte (s.pair regH regL + s.pair (hiReg rp) (loReg rp))
          f := Isa.setCY (s.r regF) f.c } := by
    rw [hc, ← hsum, ← getPair_abs]
    rfl
  rw [hexec]
  exact .bind rfl (.bind hf (carryToF_reaches _ hz))

theorem lxi_ok (rp : Pair) : HandlerOk env (.lxi rp) := by
  refine .of (entry_lxi env rp) fun s hz => .fetch hz fun s₁ habs₁ himm₁ hz₁ _ _ => .bind rfl
    (.fetch ?_ fun s₂ habs₂ himm₂ hz₂ hk₂ _ => .bind rfl (.of_eq (fetchNext_reaches _ ?_) ?_))
  · cases rp <;> exact hz₁
  · cases rp <;> exact hz₂
  · cases rp with
    | sp =>
        have hlo : s₂.r regSpL = s₁.r regMemR := hk₂ regSpL (by decide)
        have hset : abs (mov regSpH regMemR s₂).2
            = { abs s₂ with sp := word (s₂.r regMemR) (s₂.r regSpL) } := rfl
        have hmid : abs (mov regSpL regMemR s₁).2
            = { abs s₁ with sp := word (s₁.r regSpH) (s₁.r regMemR) } := rfl
        refine hset.trans ?_
        rw [habs₂, himm₂, hlo, himm₁]
        refine (congrArg (fun t : Isa.State δ =>
          { t.next with sp := word t.imm (abs s).imm }) hmid).trans ?_
        rw [habs₁]
        rfl
    | _ =>
        simp only [hiReg, loReg, abs_set_b, abs_set_c, abs_set_d, abs_set_e,
          abs_set_h, abs_set_l, habs₁, himm₁] at habs₂ himm₂ ⊢
        rw [habs₂, himm₂]
        rfl

/-! ## Eight-bit arithmetic -/

theorem exec_inr (r : Reg) (s : Isa.State δ) :
    Isa.exec Isa.coreAux env.ports (.inr r) s
      = { s.set r (s.get r + 1#8) with
          f := Isa.flagsOf (s.get r + 1#8) (s.get r + 1#8 &&& 0x0f#8 == 0#8)
            (Isa.hasCY s.f) } := by
  have h : ∀ v : Byte, (Isa.addWith Isa.coreAux v 1#8 false).1 = v + 1#8
      ∧ Isa.hasAC (Isa.addWith Isa.coreAux v 1#8 false).2 = (v + 1#8 &&& 0x0f#8 == 0#8) := by
    decide +kernel
  rw [Isa.exec]
  simp only [(h _).1, (h _).2]

theorem exec_dcr (r : Reg) (s : Isa.State δ) :
    Isa.exec Isa.coreAux env.ports (.dcr r) s
      = { s.set r (s.get r - 1#8) with
          f := Isa.flagsOf (s.get r - 1#8)
            (diffByte (s.get r - 1#8 &&& 0x0f#8) 0x0f#8 false == 0#8) (Isa.hasCY s.f) } := by
  have h : ∀ v : Byte, (Isa.subWith Isa.coreAux v 1#8 false).1 = v - 1#8
      ∧ Isa.hasAC (Isa.subWith Isa.coreAux v 1#8 false).2
        = (diffByte (v - 1#8 &&& 0x0f#8) 0x0f#8 false == 0#8) := by
    decide +kernel
  rw [Isa.exec]
  simp only [(h _).1, (h _).2]

theorem inr_ok (r : Reg) : HandlerOk env (.inr r) := by
  intro s hz
  rw [exec_inr]
  cases r with
  | m => exact .bind rfl (.bind rfl (.bind rfl (.bind rfl (inrComp_reaches _ hz))))
  | _ => exact .bind rfl (.bind rfl (inrComp_reaches _ hz))

theorem dcr_ok (r : Reg) : HandlerOk env (.dcr r) := by
  intro s hz
  rw [exec_dcr]
  cases r with
  | m => exact .bind rfl (.bind rfl (.bind rfl (.bind rfl (dcrComp_reaches _ hz))))
  | _ => exact .bind rfl (.bind rfl (dcrComp_reaches _ hz))

/-- The handlers of the accumulator operations, by operand register. -/
def aluOp : AluOp → Fin 32 → AsmM δ Exit
  | .add => addOp
  | .adc => adcOp
  | .sub => subOp
  | .sbb => sbbOp
  | .ana => anaOp
  | .xra => xraOp
  | .ora => oraOp
  | .cmp => cmpOp

theorem aluOp_reaches (op : AluOp) {src : Fin 32} (hsrc : src ≠ regTmp1)
    (s : Avr.State (Bus δ)) (hz : s.r r1 = 0#8) :
    Reaches (aluOp op src) s .fetchNext
      { abs s with
        a := (Isa.alu Isa.coreAux op (s.r regA) (s.r src) (Isa.hasCY (s.r regF))).1
        f := (Isa.alu Isa.coreAux op (s.r regA) (s.r src) (Isa.hasCY (s.r regF))).2 } := by
  cases op with
  | add => exact .bind rfl (addComp_reaches _ hz)
  | adc => exact .bind rfl (adcComp_reaches _ hz)
  | sub =>
      refine .bind rfl (.of_eq (addComp_reaches _ hz) ?_)
      rw [Isa.alu, ← packFlags_sub]
      rfl
  | sbb => exact .bind rfl (sbbComp_reaches _ hz)
  | ana => exact .bind rfl (logicComp_reaches _ true hz rfl rfl)
  | xra => exact .bind rfl (logicComp_reaches _ false hz rfl rfl)
  | ora => exact .bind rfl (logicComp_reaches _ false hz rfl rfl)
  | cmp =>
      have hkeep : (mov regTmp1 regA s).2.r src = s.r src := Avr.State.set_r_of_ne s hsrc _
      refine .bind rfl (.bind rfl (.of_eq (cmpComp_reaches _ hz) ?_))
      rw [Isa.alu, ← packFlags_sub, ← hkeep]
      rfl

theorem entry_alu (op : AluOp) {src : Reg} (hs : src ≠ .m) :
    entry env (Isa.encode (.alu op src)) = aluOp op (reg src) := by
  cases op <;> cases src <;> first | exact absurd rfl hs | rfl

theorem entry_alu_m (op : AluOp) :
    entry env (Isa.encode (.alu op .m)) = (do loadHl; aluOp op regMemR) := by
  cases op <;> rfl

theorem entry_aluImm (op : AluOp) :
    entry env (Isa.encode (.aluImm op)) = (do fetchOp; aluOp op regMemR) := by
  cases op <;> rfl

theorem alu_ok (op : AluOp) (src : Reg) : HandlerOk env (.alu op src) := by
  by_cases hs : src = .m
  · subst hs
    exact .of (entry_alu_m env op) fun s hz =>
      .bind rfl (aluOp_reaches op (by decide : regMemR ≠ regTmp1) _ hz)
  · refine .of (entry_alu env op hs) fun s hz => ?_
    rw [Isa.exec, get_abs s hs]
    exact aluOp_reaches op (by cases src <;> decide) s hz

theorem aluImm_ok (op : AluOp) : HandlerOk env (.aluImm op) := by
  refine .of (entry_aluImm env op) fun s hz => .fetch hz fun s' habs himm hz' _ _ => ?_
  have hexec : Isa.exec Isa.coreAux env.ports (.aluImm op) (abs s)
      = { abs s' with
          a := (Isa.alu Isa.coreAux op (s'.r regA) (s'.r regMemR) (Isa.hasCY (s'.r regF))).1
          f := (Isa.alu Isa.coreAux op (s'.r regA) (s'.r regMemR) (Isa.hasCY (s'.r regF))).2 } := by
    have ha : s'.r regA = (abs s).a := congrArg Isa.State.a habs
    have hf : s'.r regF = (abs s).f := congrArg Isa.State.f habs
    rw [habs, ha, hf, himm]
    rfl
  rw [hexec]
  exact aluOp_reaches op (by decide : regMemR ≠ regTmp1) s' hz'

theorem rrc_values (a : Byte) :
    a >>> 1 ||| (if a.getLsbD 0 then 0x80#8 else 0#8) = a.rotateRight 1 := by
  cases h : a.getLsbD 0 with
  | false => exact eq_of_bits (by simp_all)
  | true => exact eq_of_bits (by simp_all)

theorem ral_values : ∀ (c : Bool) (a : Byte),
    sumByte a a c = ((BitVec.ofBool c ++ a).rotateLeft 1).setWidth 8
      ∧ decide (256 ≤ a.toNat + a.toNat + c.toNat) = a.msb := by
  decide +kernel

/-- Without the carry it is bit 7 that comes in below. -/
theorem rlc_values (a : Byte) : sumByte a a (a.getLsbD 7) = a.rotateLeft 1
    ∧ decide (256 ≤ a.toNat + a.toNat + (a.getLsbD 7).toNat) = a.msb := by
  obtain ⟨hsum, hcarry⟩ := ral_values (a.getLsbD 7) a
  refine ⟨?_, hcarry⟩
  rw [hsum, Isa.ral_eq]
  cases h : a.getLsbD 7 with
  | false => exact eq_of_bits (by simp_all)
  | true => exact eq_of_bits (by simp_all [Isa.flagCY])

theorem rar_values (c : Bool) (a : Byte) :
    rorByte a c = ((BitVec.ofBool c ++ a).rotateRight 1).setWidth 8 :=
  (Isa.rar_eq c a).symm

theorem exec_rot (op : RotOp) (s : Isa.State δ) :
    Isa.exec Isa.coreAux env.ports (.rot op) s
      = { s with
          a := (Isa.rotate op s.a (Isa.hasCY s.f)).1
          f := Isa.setCY s.f (Isa.rotate op s.a (Isa.hasCY s.f)).2 } := rfl

theorem rlc_ok : HandlerOk env (.rot .rlc) := by
  intro s hz
  obtain ⟨hr, hc⟩ := rlc_values (s.r regA)
  have hrot : Isa.rotate .rlc (abs s).a (Isa.hasCY (abs s).f)
      = (sumByte (s.r regA) (s.r regA) ((s.r regA).getLsbD 7),
        decide (256 ≤ (s.r regA).toNat + (s.r regA).toNat + ((s.r regA).getLsbD 7).toNat)) := by
    rw [hr, hc]
    rfl
  rw [exec_rot, hrot]
  refine .bind (carryFrom_run s regA 7) (.bind rfl (.branch rfl (fun hb => ?_) fun hb => ?_))
  · have hb' : decide (256 ≤ (s.r regA).toNat + (s.r regA).toNat
        + ((s.r regA).getLsbD 7).toNat) = true := hb
    rw [hb', Isa.setCY_true]
    exact .bind rfl (fetchNext_reaches _ hz)
  · have hb' : decide (256 ≤ (s.r regA).toNat + (s.r regA).toNat
        + ((s.r regA).getLsbD 7).toNat) = false := hb
    rw [hb', Isa.setCY_false]
    exact .bind rfl (fetchNext_reaches _ hz)

theorem rrc_ok : HandlerOk env (.rot .rrc) := by
  intro s hz
  have hr := rrc_values (s.r regA)
  rw [exec_rot]
  refine .bind rfl (.bind rfl (.branch rfl (fun hb => ?_) fun hb => ?_))
  · have hb' : (s.r regA).getLsbD 0 = true := hb
    rw [hb', if_pos rfl] at hr
    refine .bind rfl (.bind rfl (.of_eq (fetchNext_reaches _ hz) ?_))
    have hrot : Isa.rotate .rrc (abs s).a (Isa.hasCY (abs s).f)
        = (s.r regA >>> 1 ||| 0x80#8, true) := Prod.ext hr.symm hb'
    rw [hrot]
    rfl
  · have hb' : (s.r regA).getLsbD 0 = false := hb
    rw [hb', if_neg Bool.false_ne_true, BitVec.or_zero] at hr
    refine .of_eq (fetchNext_reaches _ hz) ?_
    have hrot : Isa.rotate .rrc (abs s).a (Isa.hasCY (abs s).f)
        = (s.r regA >>> 1, false) := Prod.ext hr.symm hb'
    rw [hrot, Isa.setCY_false]
    rfl

theorem ral_ok : HandlerOk env (.rot .ral) := by
  intro s hz
  obtain ⟨hr, hc⟩ := ral_values (Isa.hasCY (s.r regF)) (s.r regA)
  have hrot : Isa.rotate .ral (abs s).a (Isa.hasCY (abs s).f)
      = (sumByte (s.r regA) (s.r regA) (Isa.hasCY (s.r regF)),
        decide (256 ≤ (s.r regA).toNat + (s.r regA).toNat + (Isa.hasCY (s.r regF)).toNat)) := by
    rw [hr, hc]
    rfl
  rw [exec_rot, hrot]
  exact .bind (carryFrom_run s regF bCY) (.bind rfl (carryToF_reaches _ hz))

theorem rar_ok : HandlerOk env (.rot .rar) := by
  intro s hz
  have hrot : Isa.rotate .rar (abs s).a (Isa.hasCY (abs s).f)
      = (rorByte (s.r regA) (Isa.hasCY (s.r regF)), (s.r regA).getLsbD 0) := by
    rw [rar_values]
    rfl
  rw [exec_rot, hrot]
  exact .bind (carryFrom_run s regF bCY) (.bind rfl (carryToF_reaches _ hz))

theorem rot_ok (op : RotOp) : HandlerOk env (.rot op) := by
  cases op with
  | rlc => exact rlc_ok env
  | rrc => exact rrc_ok env
  | ral => exact ral_ok env
  | rar => exact rar_ok env

theorem cma_ok : HandlerOk env .cma := fun _ hz => ⟨rfl, rfl, hz⟩

theorem stc_ok : HandlerOk env .stc := by
  intro s hz
  rw [Isa.exec, Isa.setCY_true]
  exact ⟨rfl, rfl, hz⟩

theorem cmc_ok : HandlerOk env .cmc := by
  intro s hz
  rw [Isa.exec, Isa.setCY_not]
  exact ⟨rfl, rfl, hz⟩

/-! ## The table and the fetch -/

/-- Every instruction an opcode can decode to has its handler, but for
the three that differ and the undefined ones. -/
theorem handler_ok {op : Byte} (hdaa : Isa.decode op ≠ .daa)
    (hpsw : Isa.decode op ≠ .push .psw) (hgo : (Isa.decode op).stops = false) :
    HandlerOk env (Isa.decode op) := by
  have hmm := Isa.decode_ne_mov_m_m op
  cases hi : Isa.decode op with
  | hlt => simp [hi, Instr.stops] at hgo
  | undefined => simp [hi, Instr.stops] at hgo
  | daa => exact absurd hi hdaa
  | mov dst src =>
      refine mov_ok env dst src fun h => hmm ?_
      rw [hi, h.1, h.2]
  | mvi dst => exact mvi_ok env dst
  | lxi rp => exact lxi_ok env rp
  | inx rp => exact inx_ok env rp
  | dcx rp => exact dcx_ok env rp
  | dad rp => exact dad_ok env rp
  | ldax rp => exact ldax_ok env rp
  | stax rp => exact stax_ok env rp
  | lda => exact lda_ok env
  | sta => exact sta_ok env
  | lhld => exact lhld_ok env
  | shld => exact shld_ok env
  | inr r => exact inr_ok env r
  | dcr r => exact dcr_ok env r
  | rot o => exact rot_ok env o
  | cma => exact cma_ok env
  | stc => exact stc_ok env
  | cmc => exact cmc_ok env
  | alu o src => exact alu_ok env o src
  | aluImm o => exact aluImm_ok env o
  | push rp =>
      refine push_ok env rp fun h => hpsw ?_
      rw [hi, h]
  | pop rp => exact pop_ok env rp
  | ret => exact ret_ok env
  | retIf cc => exact retIf_ok env cc
  | jmp => exact jmp_ok env
  | jmpIf cc => exact jmpIf_ok env cc
  | call => exact call_ok env
  | callIf cc => exact callIf_ok env cc
  | rst n => exact rst_ok env n
  | xthl => exact xthl_ok env
  | xchg => exact xchg_ok env
  | pchl => exact pchl_ok env
  | sphl => exact sphl_ok env
  | input => exact input_ok env
  | output => exact output_ok env
  | nop | ei | di => exact fun _ hz => ⟨rfl, rfl, hz⟩

/-- The twelve undefined opcodes share `inv_op`. -/
theorem inv_reaches {op : Byte} (h : op ∈ Isa.undefinedOpcodes) (s : Avr.State (Bus δ))
    (hz : s.r r1 = 0#8) : Reaches (entry env op) s .ret (abs s) := by
  simp only [Isa.undefinedOpcodes, List.mem_cons, List.not_mem_nil, or_false] at h
  rcases h with rfl | rfl | rfl | rfl | rfl | rfl | rfl | rfl | rfl | rfl | rfl | rfl <;>
    exact ⟨rfl, rfl, hz⟩

/-- The fetch steps over the opcode and enters the table there, wherever
the table is. -/
theorem fetch_run {s : Avr.State (Bus δ)} (hz : s.r r1 = 0#8) :
    ∃ s', fetch env s = entry env (abs s).imm s' ∧ abs s' = (abs s).next ∧ s'.r r1 = 0#8 := by
  obtain ⟨s', hrun, habs, himm, -, hkeep⟩ :=
    fetchOp_run (ldi r31 (hiByte env.decodeAt) (ldi r30 (loByte env.decodeAt) s).2).2
  have hz' : s'.r r1 = 0#8 := (hkeep r1 (by decide)).trans hz
  have himm' : s'.r regMemR = (abs s).imm := himm
  obtain ⟨f, hf⟩ := addConst_run s' _ (by decide : r31 ≠ r30) (by decide) hz' himm'
  have hat : s'.pair r31 r30 = env.decodeAt :=
    (congrArg₂ word (hkeep r31 (by decide)) (hkeep r30 (by decide))).trans
      (word_hiByte_loByte env.decodeAt)
  have hijmp : ijmp env (word (hiByte (s'.pair r31 r30 + word 0#8 (abs s).imm))
      (loByte (s'.pair r31 r30 + word 0#8 (abs s).imm))) = entry env (abs s).imm := by
    have hidx : (word 0#8 (abs s).imm).toNat = (abs s).imm.toNat := by
      rw [toNat_word]
      exact Nat.zero_add _
    rw [word_hiByte_loByte, hat, ijmp, BitVec.add_comm, BitVec.add_sub_cancel, hidx]
    rfl
  refine ⟨(s'.setPair r31 r30 (s'.pair r31 r30 + word 0#8 (abs s).imm)).setSreg f, ?_, habs, hz'⟩
  rw [← hijmp]
  simp only [fetch, bind_run, hrun, hf]
  rfl

theorem fetch_reaches {s : Avr.State (Bus δ)} {e : Exit} {t : Isa.State δ} (hz : s.r r1 = 0#8)
    (h : ∀ s', abs s' = (abs s).next → s'.r r1 = 0#8 →
      Reaches (entry env (abs s).imm) s' e t) : Reaches (fetch env) s e t := by
  obtain ⟨s', hrun, habs, hz'⟩ := fetch_run env hz
  obtain ⟨hexit, hstands, hzero⟩ := h s' habs hz'
  rw [← hrun] at hexit hstands hzero
  exact ⟨hexit, hstands, hzero⟩

/-- The opcodes on which the assembly core goes its own way. -/
def ownOpcodes : List Byte := [0x27#8, 0xf5#8, 0x76#8]

theorem decode_of_not_own (op : Byte) (hop : op ∉ ownOpcodes) :
    Isa.decode op ≠ .daa ∧ Isa.decode op ≠ .push .psw ∧ Isa.decode op ≠ .hlt := by
  have hne {i : Instr} (hi : i ≠ .undefined) (hown : Isa.encode i ∈ ownOpcodes) :
      Isa.decode op ≠ i := by
    intro h
    exact hop (Isa.eq_encode h hi ▸ hown)
  exact ⟨hne (by decide) (by decide), hne (by decide) (by decide), hne (by decide) (by decide)⟩

/-- One turn of the fetch loop is one step of the instruction set. -/
theorem step_refines (s : Avr.State (Bus δ)) (hz : s.r r1 = 0#8)
    (hop : (abs s).imm ∉ ownOpcodes) :
    abs (step env s).1 = (Isa.step Isa.coreAux env.ports (abs s)).1
      ∧ (step env s).2 = (Isa.step Isa.coreAux env.ports (abs s)).2
      ∧ (step env s).1.r r1 = 0#8 := by
  obtain ⟨hdaa, hpsw, hhlt⟩ := decode_of_not_own _ hop
  cases hstop : (Isa.decode (abs s).imm).stops with
  | true =>
      have hund : Isa.decode (abs s).imm = .undefined := by
        revert hstop hhlt
        cases Isa.decode (abs s).imm <;> simp [Instr.stops]
      have hfetch : Reaches (fetch env) s .ret (abs s).next := fetch_reaches env hz
        fun s' habs hz' => by
          rw [← habs]
          exact inv_reaches env ((Isa.decode_undefined_iff _).mp hund) s' hz'
      obtain ⟨hexit, hstands, hzero⟩ := hfetch
      refine ⟨?_, ?_, hzero⟩
      · rw [Isa.step, hund]
        exact hstands
      · rw [step, hexit, Isa.step, hstop]
        rfl
  | false =>
      have hop : Isa.encode (Isa.decode (abs s).imm) = (abs s).imm := by
        refine Isa.encode_decode _ fun h => ?_
        simp [h, Instr.stops] at hstop
      have hfetch : Reaches (fetch env) s .fetchNext
          (Isa.exec Isa.coreAux env.ports (Isa.decode (abs s).imm) (abs s).next) :=
        fetch_reaches env hz fun s' habs hz' => by
          have hok := handler_ok env hdaa hpsw hstop s' hz'
          rw [hop, habs] at hok
          exact hok
      obtain ⟨hexit, hstands, hzero⟩ := hfetch
      refine ⟨hstands, ?_, hzero⟩
      rw [step, hexit, Isa.step, hstop]
      rfl

end I8080

end CpMega88
