import CpMega88.Cpu8080Runs
import CpMega88.FlagFormat

/-!
# The undefined flag bits stay inert

POP PSW can put anything into bits 1, 3 and 5 of F, and no core masks
them. Two states that differ there and nowhere else (`Alike`) are taken
by a step to two states that again differ there and nowhere else: no
condition reads the three bits, and the operations on F neither move
them into a register nor into another flag. The one way out of F is
PUSH PSW.
-/

namespace CpMega88

open Bytes

namespace Isa

variable {δ : Type}

/-! ## The five flags -/

/-- F without bits 1, 3 and 5. -/
def definedBits (f : Byte) : Byte := f &&& 0xd5#8

theorem definedBits_or (x y : Byte) :
    definedBits (x ||| y) = definedBits x ||| definedBits y :=
  BitVec.and_or_distrib_right

theorem definedBits_and (x y : Byte) : definedBits (x &&& y) = definedBits x &&& y := by
  rw [definedBits, definedBits, BitVec.and_assoc, BitVec.and_assoc, BitVec.and_comm y]

theorem definedBits_setCY {f g : Byte} (h : definedBits f = definedBits g) (c : Bool) :
    definedBits (setCY f c) = definedBits (setCY g c) := by
  rw [setCY, setCY, definedBits_or, definedBits_or, definedBits_and, definedBits_and, h]

/-- Two flag bytes alike in the five flags test alike. -/
theorem has_of_definedBits {f g : Byte} (h : definedBits f = definedBits g) :
    hasS f = hasS g ∧ hasZ f = hasZ g ∧ hasAC f = hasAC g ∧ hasP f = hasP g
      ∧ hasCY f = hasCY g := by
  have hbit : ∀ (x : Byte) (i : Nat), (0xd5#8 : Byte).getLsbD i = true →
      (definedBits x).getLsbD i = x.getLsbD i := by
    intro x i hi
    rw [definedBits, BitVec.getLsbD_and, hi, Bool.and_true]
  have hsame : ∀ i, (0xd5#8 : Byte).getLsbD i = true → f.getLsbD i = g.getLsbD i := by
    intro i hi
    rw [← hbit f i hi, ← hbit g i hi, h]
  exact ⟨hsame 7 rfl, hsame 6 rfl, hsame 4 rfl, hsame 2 rfl, hsame 0 rfl⟩

theorem holds_of_definedBits {f g : Byte} (h : definedBits f = definedBits g) (cc : Cond) :
    cc.holds f = cc.holds g := by
  obtain ⟨hs, hz, -, hp, hcy⟩ := has_of_definedBits h
  cases cc <;> simp only [Cond.holds, hs, hz, hp, hcy]

/-! ## States alike but for the other three -/

/-- `t` is `s` but for bits 1, 3 and 5 of F. -/
def Alike (s t : State δ) : Prop :=
  t = { s with f := t.f } ∧ definedBits s.f = definedBits t.f

theorem Alike.imm {s t : State δ} (h : Alike s t) : t.imm = s.imm := by
  rw [h.1]
  rfl

theorem get_flags (s : State δ) (g : Byte) (r : Reg) :
    State.get { s with f := g } r = s.get r := by
  cases r <;> rfl

theorem set_flags (s : State δ) (g : Byte) (r : Reg) (v : Byte) :
    State.set { s with f := g } r v = { s.set r v with f := g } := by
  cases r <;> rfl

theorem push_f (s : State δ) (hi lo : Byte) : (s.push hi lo).f = s.f := by
  simp only [State.push, State.pushByte]

theorem execCall_alike (s : State δ) {g : Byte} (h : definedBits s.f = definedBits g) :
    Alike (execCall s) (execCall { s with f := g }) := by
  have hf : ∀ t : State δ, (execCall t).f = t.f := by
    intro t
    simp only [execCall, jumpTo, push_f, State.next]
  refine ⟨?_, ?_⟩
  · rw [hf]
    rfl
  · rwa [hf, hf]

/-- No instruction but PUSH PSW tells the two states apart. -/
theorem exec_alike (aux : AuxCarry) (ports : Ports δ) {i : Instr} (hdaa : i ≠ .daa)
    (hpush : i ≠ .push .psw) {s t : State δ} (h : Alike s t) :
    Alike (exec aux ports i s) (exec aux ports i t) := by
  obtain ⟨hframe, hbits⟩ := h
  generalize t.f = g at hframe hbits
  subst hframe
  obtain ⟨-, -, -, -, hcy⟩ := has_of_definedBits hbits
  cases i with
  | daa => exact absurd rfl hdaa
  | push rp =>
      cases rp with
      | psw => exact absurd rfl hpush
      | bc | de | hl =>
          simp only [exec]
          exact ⟨by rw [push_f]; rfl, by rwa [push_f, push_f]⟩
  | call => exact execCall_alike s hbits
  | rst n =>
      simp only [exec, jumpTo]
      exact ⟨by rw [push_f]; rfl, by rwa [push_f, push_f]⟩
  | pop rp => cases rp <;> exact ⟨rfl, by first | exact hbits | rfl⟩
  | mov dst src =>
      simp only [exec, get_flags, set_flags]
      exact ⟨rfl, by rw [set_f]; exact hbits⟩
  | mvi dst => cases dst <;> exact ⟨rfl, hbits⟩
  | lxi rp | inx rp | dcx rp => cases rp <;> exact ⟨rfl, hbits⟩
  | dad rp => cases rp <;> exact ⟨rfl, definedBits_setCY hbits _⟩
  | ldax rp | stax rp => cases rp <;> exact ⟨rfl, hbits⟩
  | inr r | dcr r =>
      simp only [exec, get_flags, set_flags, ← hcy]
      exact ⟨rfl, rfl⟩
  | rot op =>
      simp only [exec, ← hcy]
      exact ⟨rfl, definedBits_setCY hbits _⟩
  | stc => exact ⟨rfl, definedBits_setCY hbits _⟩
  | cmc =>
      simp only [exec, ← hcy]
      exact ⟨rfl, definedBits_setCY hbits _⟩
  | alu op src =>
      simp only [exec, get_flags, ← hcy]
      exact ⟨rfl, rfl⟩
  | aluImm op =>
      simp only [exec, ← hcy]
      exact ⟨rfl, rfl⟩
  | retIf cc | jmpIf cc =>
      simp only [exec, ← holds_of_definedBits hbits cc]
      split <;> exact ⟨rfl, hbits⟩
  | callIf cc =>
      simp only [exec, ← holds_of_definedBits hbits cc]
      split
      · exact execCall_alike s hbits
      · exact ⟨rfl, hbits⟩
  | _ => exact ⟨rfl, hbits⟩

end Isa

namespace Cpu8080

open Isa

variable {δ : Type} (ports : Ports δ)

/-! ## The C core -/

/-- DAA reads CY and AC alone. -/
theorem daa_alike (a : Byte) {f g : Byte} (h : definedBits f = definedBits g) :
    daaA a f = daaA a g ∧ definedBits (daaF a f) = definedBits (daaF a g) := by
  obtain ⟨-, -, hac, -, hcy⟩ := has_of_definedBits h
  have hlo : daaLo a f = daaLo a g := by rw [daaLo, daaLo, hac]
  have hhi : daaHi a f = daaHi a g := by rw [daaHi, daaHi, hcy]
  have ha : daaA a f = daaA a g := by rw [daaA, daaA, hlo, hhi]
  have hset : definedBits (if daaLo a g then f ||| fAC else f &&& ~~~fAC)
      = definedBits (if daaLo a g then g ||| fAC else g &&& ~~~fAC) := by
    split
    · rw [definedBits_or, definedBits_or, h]
    · rw [definedBits_and, definedBits_and, h]
  refine ⟨ha, ?_⟩
  rw [daaF, daaF, ha, hlo, hhi, definedBits_or, definedBits_or, definedBits_and, definedBits_and,
    definedBits_setCY hset]

theorem step_alike {w w' : Work δ} (h : Alike w.arch w'.arch)
    (hpush : w.mem w.pc ≠ 0xf5#8) :
    Alike (step ports w).2.arch (step ports w').2.arch
      ∧ (step ports w).1 = (step ports w').1 := by
  have himm : w'.mem w'.pc = w.mem w.pc := h.imm
  have hnext : Alike w.arch.next w'.arch.next := by
    refine ⟨?_, h.2⟩
    rw [h.1]
    rfl
  refine ⟨?_, by rw [step_code, step_code, himm]⟩
  by_cases hdaa : decode (w.mem w.pc) = .daa
  · have hdaa' : decode (w'.mem w'.pc) = .daa := himm ▸ hdaa
    have ha : w'.a = w.a := congrArg State.a h.1
    obtain ⟨hA, hF⟩ := daa_alike w.a h.2
    rw [step_daa ports hdaa, step_daa ports hdaa']
    refine ⟨?_, ?_⟩
    · rw [hnext.1, ha]
      exact congrArg (fun v => { w.arch.next with a := v, f := daaF w.a w'.f }) hA.symm
    · show definedBits (daaF w.a w.f) = definedBits (daaF w'.a w'.f)
      rw [ha]
      exact hF
  · have hdaa' : decode (w'.mem w'.pc) ≠ .daa := himm ▸ hdaa
    have hpsw : decode (w.mem w.pc) ≠ .push .psw := fun hp => hpush (eq_encode hp (by decide))
    rw [(step_refines ports w hdaa).1, (step_refines ports w' hdaa').1]
    have hexec := exec_alike coreAux ports hdaa hpsw hnext
    simp only [Isa.step, State.imm]
    have himm' : w'.arch.mem w'.arch.pc = w.arch.mem w.arch.pc := himm
    rw [himm']
    exact hexec

/-- Two runs from states that differ at most in bits 1, 3 and 5 of F:
as long as no PUSH PSW is executed they differ nowhere else, and return
the same codes. The calls made to the ports, with their replies, are part
of the state. -/
theorem stray_flags_inert (w w' : Work δ) (h : Alike w.arch w'.arch) (n : Nat)
    (hpush : ∀ k < n, (after ports w k).mem (after ports w k).pc ≠ 0xf5#8) :
    Alike (after ports w n).arch (after ports w' n).arch
      ∧ ∀ k < n, (step ports (after ports w k)).1 = (step ports (after ports w' k)).1 := by
  induction n with
  | zero => exact ⟨h, fun k hk => absurd hk (Nat.not_lt_zero k)⟩
  | succ n ih =>
      obtain ⟨hn, hcodes⟩ := ih fun k hk => hpush k (Nat.lt_succ_of_lt hk)
      obtain ⟨hstep, hcode⟩ := step_alike ports hn (hpush n (Nat.lt_succ_self n))
      rw [after_succ, after_succ]
      refine ⟨hstep, fun k hk => ?_⟩
      rcases Nat.lt_succ_iff_lt_or_eq.mp hk with hlt | rfl
      · exact hcodes k hlt
      · exact hcode

/-- A memory full of DAA, with every bit of F set. -/
def daaStart : Work Unit := { Work.cold (fun _ => 0x27#8) with f := 0xff#8 }

/-- Two steps from there and from F = D5h. -/
theorem stray_flags_inert_daa :
    Alike (after .idle daaStart 2).arch (after .idle { daaStart with f := 0xd5#8 } 2).arch
      ∧ ∀ k < 2, (step .idle (after .idle daaStart k)).1
        = (step .idle (after .idle { daaStart with f := 0xd5#8 } k)).1 := by
  have halike : Alike daaStart.arch { daaStart with f := 0xd5#8 : Work Unit }.arch :=
    ⟨rfl, rfl⟩
  refine stray_flags_inert .idle _ _ halike 2 fun k hk => ?_
  have hop : ∀ k < 2, (after .idle daaStart k).mem (after .idle daaStart k).pc ≠ 0xf5#8 := by
    decide
  exact hop k hk

end Cpu8080

end CpMega88
