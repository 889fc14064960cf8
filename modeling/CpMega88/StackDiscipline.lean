import CpMega88.Cpu8080Runs
import CpMega88.Lib.Nesting

/-!
# The stack discipline

PUSH and CALL open, POP and RET close: what a run of the C core does to
the stack is a word of brackets (`trace`), and the level of the word is
the number of words on the stack. The stack itself is nowhere but in the
guest's memory. `stack_discipline` says that it works as one all the
same: over every well-nested run each POP gives back what its PUSH
stored and each RET goes back to where its CALL or RST came from,
wherever SP starts and whether or not the stack runs through 0.

A word is read off the instructions as they are executed, so a guest
that overwrites its own code is not excluded; one that overwrites live
stack cells is (`Live`).
-/

namespace CpMega88

open Bytes Nesting

namespace Isa

variable {δ : Type}

/-! ## What an instruction does to the stack -/

/-- A register pair, or a return address. -/
inductive Kind where
  | pair | addr
deriving DecidableEq, Repr

/-- The instruction at PC as a bracket: a conditional call or return is
one when it is taken, and `stray` is whatever else moves SP. -/
def bracket (s : State δ) : Bracket Kind :=
  match decode s.imm with
  | .push _ => .opens .pair
  | .pop _ => .closes .pair
  | .call | .rst _ => .opens .addr
  | .ret => .closes .addr
  | .callIf cc => if cc.holds s.f then .opens .addr else .plain
  | .retIf cc => if cc.holds s.f then .closes .addr else .plain
  | .lxi .sp | .inx .sp | .dcx .sp | .sphl => .stray
  | _ => .plain

/-- The address after a CALL or RST at PC, operand bytes included. -/
def returnAddress (s : State δ) : Word :=
  match decode s.imm with
  | .rst _ => s.pc + 1
  | _ => s.pc + 1 + 1 + 1

/-- The bytes an opening instruction at PC stores, the high one first. -/
def stored (s : State δ) : Byte × Byte :=
  match decode s.imm with
  | .push rp => s.getStackPair rp
  | _ => (hiByte (returnAddress s), loByte (returnAddress s))

/-- The pair a POP loads, as it is after it. -/
def State.loaded (s : State δ) : StackPair → Byte × Byte
  | .bc => (s.b, s.c)
  | .de => (s.d, s.e)
  | .hl => (s.h, s.l)
  | .psw => (s.a, s.f)

section

variable (aux : AuxCarry) (ports : Ports δ)

/-- An opening instruction stores its two bytes below SP. -/
theorem step_opens {s : State δ} {k : Kind} (h : bracket s = .opens k) :
    (step aux ports s).1.sp = s.sp - 1 - 1
      ∧ (step aux ports s).1.mem
        = Function.update (Function.update s.mem (s.sp - 1) (stored s).1) (s.sp - 1 - 1)
          (stored s).2 := by
  unfold step bracket stored returnAddress at *
  cases hi : decode s.imm with
  | push rp => cases rp <;> exact ⟨rfl, rfl⟩
  | call => exact ⟨rfl, rfl⟩
  | rst n => exact ⟨rfl, rfl⟩
  | callIf cc =>
      cases hcc : cc.holds s.f with
      | false => simp [hi, hcc] at h
      | true =>
          have hnext : cc.holds s.next.f = true := hcc
          simp only [exec, hnext, if_true]
          exact ⟨rfl, rfl⟩
  | retIf cc => cases hcc : cc.holds s.f <;> simp [hi, hcc] at h
  | lxi rp | inx rp | dcx rp => cases rp <;> simp [hi] at h
  | _ => simp [hi] at h

/-- A closing instruction drops two bytes: a POP into its pair, a return
into PC. -/
theorem step_closes {s : State δ} {k : Kind} (h : bracket s = .closes k) :
    (step aux ports s).1.sp = s.sp + 1 + 1 ∧ (step aux ports s).1.mem = s.mem
      ∧ (k = .pair → ∃ rp, decode s.imm = .pop rp
        ∧ (step aux ports s).1.loaded rp = (s.mem (s.sp + 1), s.mem s.sp))
      ∧ (k = .addr → (step aux ports s).1.pc = word (s.mem (s.sp + 1)) (s.mem s.sp)) := by
  unfold step bracket at *
  cases hi : decode s.imm with
  | pop rp =>
      cases rp <;> refine ⟨rfl, rfl, fun _ => ⟨_, rfl, rfl⟩, fun hk => ?_⟩ <;>
        simp [hi, hk] at h
  | ret => refine ⟨rfl, rfl, fun hk => ?_, fun _ => rfl⟩; simp [hi, hk] at h
  | retIf cc =>
      cases hcc : cc.holds s.f with
      | false => simp [hi, hcc] at h
      | true =>
          have hnext : cc.holds s.next.f = true := hcc
          simp only [exec, hnext, if_true]
          refine ⟨rfl, rfl, fun hk => ?_, fun _ => rfl⟩
          simp [hi, hcc, hk] at h
  | callIf cc => cases hcc : cc.holds s.f <;> simp [hi, hcc] at h
  | lxi rp | inx rp | dcx rp => cases rp <;> simp [hi] at h
  | _ => simp [hi] at h

theorem set_sp (s : State δ) (r : Reg) (v : Byte) : (s.set r v).sp = s.sp := by
  cases r <;> rfl

/-- Every other instruction leaves SP alone. -/
theorem step_plain {s : State δ} (h : bracket s = .plain) :
    (step aux ports s).1.sp = s.sp := by
  unfold step bracket at *
  cases hi : decode s.imm with
  | push rp | pop rp | call | rst n | ret | sphl => simp [hi] at h
  | lxi rp | inx rp | dcx rp => cases rp <;> first | rfl | simp [hi] at h
  | callIf cc | retIf cc =>
      cases hcc : cc.holds s.f with
      | true => simp [hi, hcc] at h
      | false =>
          have hnext : cc.holds s.next.f = false := hcc
          simp only [exec, hnext, Bool.false_eq_true, if_false]
          rfl
  | jmpIf cc =>
      simp only [exec]
      split <;> rfl
  | mov dst src | mvi dst | inr dst | dcr dst => simp only [exec, set_sp, State.next]
  | input | output => simp only [exec, execInput, execOutput, State.next]
  | _ => simp only [exec, execJmp, jumpTo, State.setPair, State.store, State.next]

end

end Isa

namespace Cpu8080

open Isa

variable {δ : Type} (ports : Ports δ)

/-! ## The same of the C core -/

theorem bracket_ne_daa {w : Work δ} {k : Kind}
    (h : bracket w.arch = .opens k ∨ bracket w.arch = .closes k) :
    decode (w.mem w.pc) ≠ .daa := by
  intro hdaa
  have himm : decode w.arch.imm = .daa := hdaa
  simp [bracket, himm] at h

theorem step_opens {w : Work δ} {k : Kind} (h : bracket w.arch = .opens k) :
    (step ports w).2.sp = w.sp - 1 - 1
      ∧ (step ports w).2.mem
        = Function.update (Function.update w.mem (w.sp - 1) (stored w.arch).1) (w.sp - 1 - 1)
          (stored w.arch).2 := by
  have harch := (step_refines ports w (bracket_ne_daa (.inl h))).1
  have hexec := Isa.step_opens coreAux ports h
  rw [← harch] at hexec
  exact hexec

theorem step_closes {w : Work δ} {k : Kind} (h : bracket w.arch = .closes k) :
    (step ports w).2.sp = w.sp + 1 + 1 ∧ (step ports w).2.mem = w.mem
      ∧ (k = .pair → ∃ rp, decode (w.mem w.pc) = .pop rp
        ∧ (step ports w).2.arch.loaded rp = (w.mem (w.sp + 1), w.mem w.sp))
      ∧ (k = .addr → (step ports w).2.pc = word (w.mem (w.sp + 1)) (w.mem w.sp)) := by
  have harch := (step_refines ports w (bracket_ne_daa (.inr h))).1
  have hexec := Isa.step_closes coreAux ports h
  rw [← harch] at hexec
  exact hexec

theorem step_plain {w : Work δ} (h : bracket w.arch = .plain) :
    (step ports w).2.sp = w.sp := by
  by_cases hdaa : decode (w.mem w.pc) = .daa
  · exact congrArg Isa.State.sp (step_daa ports hdaa)
  · have harch := (step_refines ports w hdaa).1
    have hexec := Isa.step_plain coreAux ports h
    rw [← harch] at hexec
    exact hexec

/-! ## Runs as words -/

/-- What the first `n` steps do to the stack. -/
def trace (w : Work δ) (n : Nat) : List (Bracket Kind) :=
  (List.range n).map fun k => bracket (after ports w k).arch

theorem trace_succ (w : Work δ) (n : Nat) :
    trace ports w (n + 1) = trace ports w n ++ [bracket (after ports w n).arch] := by
  simp [trace, List.range_succ]

theorem trace_take (w : Work δ) {k n : Nat} (h : k ≤ n) :
    (trace ports w n).take k = trace ports w k := by
  rw [trace, ← List.map_take, List.take_range, Nat.min_eq_left h, trace]

theorem trace_getElem (w : Work δ) {k n : Nat} (h : k < n) :
    (trace ports w n)[k]? = some (bracket (after ports w k).arch) := by
  simp [trace, List.getElem?_range h]

theorem length_trace (w : Work δ) (n : Nat) : (trace ports w n).length = n := by
  simp [trace]

/-- The cells of the `d` words below `sp`. -/
def Live (sp : Word) (d : Int) (a : Word) : Prop := ((sp - 1 - a).toNat : Int) < 2 * d

/-- The first `n` steps from `w` are well nested, to a depth at which
the stack cannot meet its own end, and no instruction but a PUSH, CALL
or RST changes a cell that is on the stack. -/
structure Disciplined (w : Work δ) (n : Nat) : Prop where
  nested : WellNested (trace ports w n)
  depth : ∀ k ≤ n, level (trace ports w k) < 32768
  safe : ∀ k < n, bracket (after ports w k).arch = .plain → ∀ a,
    Live w.sp (level (trace ports w k)) a →
      (after ports w (k + 1)).mem a = (after ports w k).mem a

section

variable {ports} {w : Work δ} {n : Nat}

namespace Disciplined

theorem not_stray (h : Disciplined ports w n) {k : Nat} (hk : k < n) :
    bracket (after ports w k).arch ≠ .stray := by
  intro hstray
  have hmem := List.mem_of_getElem? (trace_getElem ports w hk)
  exact h.nested.stray_notMem (hstray ▸ hmem)

theorem level_nonneg (h : Disciplined ports w n) {k : Nat} (hk : k ≤ n) :
    0 ≤ level (trace ports w k) := by
  have := h.nested.level_take_nonneg k
  rwa [trace_take ports w hk] at this

/-- SP is two bytes further down for every word on the stack. -/
theorem sp_eq (h : Disciplined ports w n) {k : Nat} (hk : k ≤ n) :
    ((w.sp - (after ports w k).sp).toNat : Int) = 2 * level (trace ports w k) := by
  induction k with
  | zero => simp [trace]
  | succ k ih =>
      have hnow := ih (Nat.le_of_succ_le hk)
      have hlow := h.level_nonneg hk
      have hhigh := h.depth (k + 1) hk
      rw [after_succ]
      rw [trace_succ, level_append, level_cons, level_nil] at hlow hhigh ⊢
      cases hb : bracket (after ports w k).arch with
      | opens κ =>
          rw [(step_opens ports hb).1]
          simp only [hb, Bracket.weight] at hlow hhigh ⊢
          bv_omega
      | closes κ =>
          rw [(step_closes ports hb).1]
          simp only [hb, Bracket.weight] at hlow hhigh ⊢
          bv_omega
      | plain =>
          rw [step_plain ports hb, hnow]
          simp [Bracket.weight]
      | stray => exact absurd hb (h.not_stray (Nat.lt_of_succ_le hk))

/-- The two cells an opening instruction writes lie just below the words
on the stack. -/
theorem cells (h : Disciplined ports w n) {k : Nat} (hk : k ≤ n) :
    ((w.sp - 1 - ((after ports w k).sp - 1)).toNat : Int) = 2 * level (trace ports w k)
      ∧ ((w.sp - 1 - ((after ports w k).sp - 1 - 1)).toNat : Int)
        = 2 * level (trace ports w k) + 1 := by
  have hsp := h.sp_eq hk
  have hdepth := h.depth k hk
  constructor <;> bv_omega

/-- One step keeps the cells of a word while there are words above it. -/
theorem step_keeps (h : Disciplined ports w n) {k : Nat} (hk : k < n) {a : Word}
    (hlive : Live w.sp (level (trace ports w k)) a) :
    (after ports w (k + 1)).mem a = (after ports w k).mem a := by
  cases hb : bracket (after ports w k).arch with
  | opens κ =>
      obtain ⟨hhi, hlo⟩ := h.cells hk.le
      unfold Live at hlive
      have hne1 : a ≠ (after ports w k).sp - 1 := by
        rintro rfl
        omega
      have hne2 : a ≠ (after ports w k).sp - 1 - 1 := by
        rintro rfl
        omega
      rw [after_succ, (step_opens ports hb).2, Function.update_of_ne hne2,
        Function.update_of_ne hne1]
  | closes κ => rw [after_succ, (step_closes ports hb).2.1]
  | plain => exact h.safe k hk hb a hlive
  | stray => exact absurd hb (h.not_stray hk)

/-- A cell that is live all the way is unchanged. -/
theorem keeps (h : Disciplined ports w n) {i j : Nat} (hij : i ≤ j) (hj : j ≤ n) {a : Word}
    (hlive : ∀ m, i ≤ m → m < j → Live w.sp (level (trace ports w m)) a) :
    (after ports w j).mem a = (after ports w i).mem a := by
  induction j, hij using Nat.le_induction with
  | base => rfl
  | succ j hij ih =>
      rw [h.step_keeps hj (hlive j hij (Nat.lt_succ_self j))]
      exact ih (Nat.le_of_succ_le hj) fun m hm hmj => hlive m hm (Nat.lt_succ_of_lt hmj)

/-- The closing instruction of a pair finds what the opening one stored
on top of the stack. -/
theorem matched (h : Disciplined ports w n) {i j : Nat} (hm : Matches (trace ports w n) i j) :
    ((after ports w j).mem ((after ports w j).sp + 1), (after ports w j).mem (after ports w j).sp)
      = stored (after ports w i).arch := by
  obtain ⟨hij, κ, hi, hj⟩ := hm.letters
  obtain ⟨hlevel, hinside⟩ := hm.level_lt
  have hjn : j < n := by
    rw [← length_trace ports w n]
    exact (List.getElem?_eq_some_iff.mp hj).1
  have hin : i < n := Nat.lt_trans hij hjn
  have hopen : bracket (after ports w i).arch = .opens κ := by
    rw [trace_getElem ports w hin] at hi
    exact Option.some.inj hi
  rw [trace_take ports w hjn.le, trace_take ports w hin.le] at hlevel
  obtain ⟨hhi, hlo⟩ := h.cells hin.le
  have hlive : ∀ a, ((w.sp - 1 - a).toNat : Int) ≤ 2 * level (trace ports w i) + 1 →
      (after ports w j).mem a = (after ports w (i + 1)).mem a := by
    intro a ha
    refine h.keeps hij hjn.le fun m hm hmj => ?_
    have hlt := hinside m hm hmj.le
    rw [trace_take ports w (hmj.trans hjn).le, trace_take ports w hin.le] at hlt
    unfold Live
    omega
  have hspi := h.sp_eq hin.le
  have hspj := h.sp_eq hjn.le
  have hsp : (after ports w j).sp = (after ports w i).sp - 1 - 1 := by
    have := h.depth j hjn.le
    have := h.level_nonneg hin.le
    bv_omega
  have hsp1 : (after ports w i).sp - 1 - 1 + 1 = (after ports w i).sp - 1 := by
    rw [BitVec.sub_add_cancel]
  have hne : (after ports w i).sp - 1 ≠ (after ports w i).sp - 1 - 1 := by
    intro heq
    rw [← heq] at hlo
    omega
  rw [hsp, hsp1, hlive _ (by omega), hlive _ (by omega), after_succ, (step_opens ports hopen).2,
    Function.update_self, Function.update_of_ne hne, Function.update_self]

end Disciplined

/-! ## The discipline -/

theorem stored_push {s : State δ} {rp : StackPair} (h : decode s.imm = .push rp) :
    stored s = s.getStackPair rp := by
  rw [stored, h]

theorem stored_addr {s : State δ} (h : bracket s = .opens .addr) :
    stored s = (hiByte (returnAddress s), loByte (returnAddress s)) := by
  unfold stored
  unfold bracket at h
  cases hi : decode s.imm with
  | push rp => simp [hi] at h
  | _ => rfl

/-- What closes a pair restores what opened it: POP what was pushed, RET
the address behind the CALL or RST. -/
theorem Disciplined.restores (h : Disciplined ports w n) {i j : Nat}
    (hm : Matches (trace ports w n) i j) :
    (∀ rp rp', decode (after ports w i).arch.imm = .push rp →
        decode (after ports w j).arch.imm = .pop rp' →
        (after ports w (j + 1)).arch.loaded rp' = (after ports w i).arch.getStackPair rp)
      ∧ (bracket (after ports w i).arch = .opens .addr →
        (after ports w (j + 1)).pc = returnAddress (after ports w i).arch) := by
  obtain ⟨hij, κ, hi, hj⟩ := hm.letters
  have hjn : j < n := by
    rw [← length_trace ports w n]
    exact (List.getElem?_eq_some_iff.mp hj).1
  rw [trace_getElem ports w (Nat.lt_trans hij hjn), Option.some.injEq] at hi
  rw [trace_getElem ports w hjn, Option.some.injEq] at hj
  obtain ⟨-, -, hpop, hret⟩ := step_closes ports hj
  have hstored := h.matched hm
  refine ⟨fun rp rp' hpush hpop' => ?_, fun haddr => ?_⟩
  · have hκ : κ = .pair := by
      simp only [bracket, hpush, Bracket.opens.injEq] at hi
      exact hi.symm
    obtain ⟨rp'', hrp, hloaded⟩ := hpop hκ
    obtain rfl : rp'' = rp' := by
      have himm : decode (after ports w j).arch.imm = .pop rp'' := hrp
      rw [himm, Instr.pop.injEq] at hpop'
      exact hpop'
    rw [after_succ, hloaded, hstored, stored_push hpush]
  · have hκ : κ = .addr := by
      rw [hi, Bracket.opens.injEq] at haddr
      exact haddr
    rw [stored_addr haddr, Prod.mk.injEq] at hstored
    rw [after_succ, hret hκ, hstored.1, hstored.2, word_hiByte_loByte]

/-- A byte that no instruction in between writes, and that no PUSH, CALL
or RST stores to, is what it was. -/
theorem Disciplined.frame (h : Disciplined ports w n) {a : Word}
    (hpushed : ∀ k < n, ∀ κ, bracket (after ports w k).arch = .opens κ →
      a ≠ (after ports w k).sp - 1 ∧ a ≠ (after ports w k).sp - 1 - 1)
    (hplain : ∀ k < n, bracket (after ports w k).arch = .plain →
      (after ports w (k + 1)).mem a = (after ports w k).mem a) :
    ∀ k ≤ n, (after ports w k).mem a = w.mem a := by
  intro k hk
  induction k with
  | zero => rfl
  | succ k ih =>
      have hlt : k < n := hk
      rw [← ih hlt.le]
      cases hb : bracket (after ports w k).arch with
      | opens κ =>
          obtain ⟨hne1, hne2⟩ := hpushed k hlt κ hb
          rw [after_succ, (step_opens ports hb).2, Function.update_of_ne hne2,
            Function.update_of_ne hne1]
      | closes κ => rw [after_succ, (step_closes ports hb).2.1]
      | plain => exact hplain k hlt hb
      | stray => exact absurd hb (h.not_stray hlt)

/-- Over a well-nested run every POP has its PUSH and every RET its CALL
or RST: the POP gives the pair the PUSH stored, the RET continues after
the CALL or RST, SP comes back to where it was, and no memory has
changed but the cells pushed and what the instructions in between
changed themselves. -/
theorem stack_discipline (h : Disciplined ports w n) :
    (after ports w n).sp = w.sp
      ∧ (∀ j < n, ∀ κ, bracket (after ports w j).arch = .closes κ →
          ∃ i, Matches (trace ports w n) i j)
      ∧ (∀ i j, Matches (trace ports w n) i j →
          (∀ rp rp', decode (after ports w i).arch.imm = .push rp →
            decode (after ports w j).arch.imm = .pop rp' →
            (after ports w (j + 1)).arch.loaded rp' = (after ports w i).arch.getStackPair rp)
          ∧ (bracket (after ports w i).arch = .opens .addr →
            (after ports w (j + 1)).pc = returnAddress (after ports w i).arch))
      ∧ ∀ a,
          (∀ k < n, ∀ κ, bracket (after ports w k).arch = .opens κ →
            a ≠ (after ports w k).sp - 1 ∧ a ≠ (after ports w k).sp - 1 - 1) →
          (∀ k < n, bracket (after ports w k).arch = .plain →
            (after ports w (k + 1)).mem a = (after ports w k).mem a) →
          (after ports w n).mem a = w.mem a := by
  refine ⟨?_, fun j hj κ hb => ?_, fun i j hm => h.restores hm, fun a hpushed hplain => ?_⟩
  · have hsp := h.sp_eq (Nat.le_refl n)
    rw [h.nested.level_eq] at hsp
    bv_omega
  · exact h.nested.exists_match ((trace_getElem ports w hj).trans (congrArg some hb))
  · exact h.frame hpushed hplain n (Nat.le_refl n)

end

/-- PUSH B and RST 30H at 100h, RET at 30h, then POP D. -/
def nestedCall : Mem := fun addr =>
  if addr = 0x0100#16 then 0xc5#8 else if addr = 0x0101#16 then 0xf7#8
  else if addr = 0x0030#16 then 0xc9#8 else 0xd1#8

def nestedCallStart : Work Unit :=
  { Work.cold nestedCall with pc := 0x0100#16, sp := 1, b := 0x12#8, c := 0x34#8 }

/-- A stack that wraps, from SP = 1. -/
theorem stack_discipline_wrapped :
    (after .idle nestedCallStart 4).sp = 1
      ∧ (after .idle nestedCallStart 4).arch.loaded .de = (0x12#8, 0x34#8)
      ∧ (after .idle nestedCallStart 3).pc = 0x0102#16 := by
  have htrace : trace .idle nestedCallStart 4
      = [.opens .pair, .opens .addr, .closes .addr, .closes .pair] := rfl
  have hinner : WellNested [.opens Kind.addr, .closes Kind.addr] := .pair Kind.addr .nil .nil
  have hd : Disciplined .idle nestedCallStart 4 := by
    refine ⟨?_, fun k hk => ?_, fun k hk hb => ?_⟩
    · rw [htrace]
      exact .pair .pair hinner .nil
    · have hlevels : ∀ k ≤ 4, level (([.opens .pair, .opens .addr, .closes .addr,
          .closes .pair] : List (Bracket Kind)).take k) < 32768 := by decide
      rw [← trace_take .idle nestedCallStart hk, htrace]
      exact hlevels k hk
    · have hopen : ∀ k < 4, ([.opens .pair, .opens .addr, .closes .addr,
          .closes .pair] : List (Bracket Kind))[k]? ≠ some .plain := by decide
      rw [← hb, ← trace_getElem .idle nestedCallStart hk, htrace] at hopen
      exact absurd rfl (hopen k hk)
  obtain ⟨hsp, -, hpairs, -⟩ := stack_discipline hd
  have houter : Matches (trace .idle nestedCallStart 4) 0 3 :=
    ⟨.pair, [], [.opens .addr, .closes .addr], [], htrace, hinner, rfl, rfl⟩
  have hcall : Matches (trace .idle nestedCallStart 4) 1 2 :=
    ⟨.addr, [.opens .pair], [], [.closes .pair], htrace, .nil, rfl, rfl⟩
  exact ⟨hsp, (hpairs 0 3 houter).1 .bc .de rfl rfl, (hpairs 1 2 hcall).2 rfl⟩

end Cpu8080

end CpMega88
