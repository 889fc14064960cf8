import CpMega88.Cpu8080Runs
import Mathlib.Tactic.LinearCombination

/-!
# Multi-precision loops

The loop every 8080 program adds long numbers with:

    LDAX D;  ADC M;  MOV M,A;  INX H;  INX D;  DCR B;  JNZ

and the same with SBB for subtraction. `multi_precision` says what the C core
makes of it. One pass (`pass`) handles one byte and hands the carry on
through the four instructions in between, none of which touches it; the
passes add up to exact arithmetic on the little-endian numbers in the two
buffers, wherever the pointers wrap.
-/

namespace CpMega88

open Bytes

/-! ## Numbers in memory -/

/-- The `n` bytes from `addr` on. -/
def bytesAt (mem : Mem) (addr : Word) (n : Nat) : List Byte :=
  (List.range n).map fun i => mem (addr + BitVec.ofNat 16 i)

/-- Their value, the lowest byte first. -/
def valueAt (mem : Mem) (addr : Word) (n : Nat) : Nat :=
  Digits.total 256 BitVec.toNat (bytesAt mem addr n)

theorem valueAt_succ (mem : Mem) (addr : Word) (n : Nat) :
    valueAt mem addr (n + 1)
      = valueAt mem addr n + 256 ^ n * (mem (addr + BitVec.ofNat 16 n)).toNat := by
  simp [valueAt, bytesAt, Digits.total, List.range_succ, Nat.ofDigits_append]

theorem valueAt_lt (mem : Mem) (addr : Word) (n : Nat) : valueAt mem addr n < 256 ^ n := by
  induction n with
  | zero => simp [valueAt, bytesAt, Digits.total]
  | succ n ih =>
      have hbyte := (mem (addr + BitVec.ofNat 16 n)).isLt
      have hmul : 256 ^ n * (mem (addr + BitVec.ofNat 16 n)).toNat ≤ 256 ^ n * 255 :=
        Nat.mul_le_mul_left _ (by omega)
      rw [valueAt_succ, pow_succ]
      omega

theorem valueAt_congr {mem mem' : Mem} {addr : Word} {n : Nat}
    (h : ∀ i < n, mem (addr + BitVec.ofNat 16 i) = mem' (addr + BitVec.ofNat 16 i)) :
    valueAt mem addr n = valueAt mem' addr n := by
  have hbytes : bytesAt mem addr n = bytesAt mem' addr n :=
    List.map_congr_left fun i hi => h i (List.mem_range.mp hi)
  rw [valueAt, valueAt, hbytes]

/-- The `n` bytes from `a` and the `m` bytes from `b` share no cell. -/
def BuffersApart (a : Word) (n : Nat) (b : Word) (m : Nat) : Prop :=
  ∀ i < n, ∀ j < m, a + BitVec.ofNat 16 i ≠ b + BitVec.ofNat 16 j

theorem offset_inj {a : Word} {i j : Nat} (hi : i < 256) (hj : j < 256)
    (h : a + BitVec.ofNat 16 i = a + BitVec.ofNat 16 j) : i = j := by
  bv_omega

namespace Isa

variable {δ : Type}

/-! ## The loop -/

/-- `code` stands at `p`. -/
def CodeAt (mem : Mem) (p : Word) (code : List Byte) : Prop :=
  ∀ i (h : i < code.length), mem (p + BitVec.ofNat 16 i) = code[i]

/-- The loop at `p`, over ADC M or SBB M. -/
def loopCode (op : AluOp) (p : Word) : List Byte :=
  [encode (.ldax .de), encode (.alu op .m), encode (.mov .m .a), encode (.inx .hl),
    encode (.inx .de), encode (.dcr .b), encode (.jmpIf .nz), loByte p, hiByte p]

theorem CodeAt.update {mem : Mem} {p : Word} {code : List Byte} (h : CodeAt mem p code)
    {a : Word} (ha : ∀ i < code.length, a ≠ p + BitVec.ofNat 16 i) (v : Byte) :
    CodeAt (Function.update mem a v) p code := by
  intro i hi
  rw [Function.update_of_ne (ha i hi).symm, h i hi]

/-- `s` with PC at byte `j` of the code at `p`. -/
def State.atByte (s : State δ) (p : Word) (j : Nat) : State δ :=
  { s with pc := p + BitVec.ofNat 16 j }

theorem next_atByte (s : State δ) (p : Word) (j : Nat) :
    (s.atByte p j).next = s.atByte p (j + 1) := by
  have hpc : p + BitVec.ofNat 16 j + 1 = p + BitVec.ofNat 16 (j + 1) := by
    rw [BitVec.add_assoc, BitVec.ofNat_add]
    rfl
  rw [State.next, State.atByte, State.atByte, ← hpc]

/-- The state after one pass, from the state `s` at its beginning. -/
def afterPass (op : AluOp) (p : Word) (s : State δ) : State δ :=
  let v := alu coreAux op (s.mem (s.index .de)) (s.mem s.hl) (hasCY s.f)
  let u := subWith coreAux s.b 1#8 false
  { s with
    a := v.1, b := u.1, f := flagsOf u.1 (hasAC u.2) (hasCY v.2)
    d := hiByte (s.index .de + 1), e := loByte (s.index .de + 1)
    h := hiByte (s.hl + 1), l := loByte (s.hl + 1)
    pc := if u.1 = 0#8 then p + BitVec.ofNat 16 9 else p
    mem := Function.update s.mem s.hl v.1 }

/-- The state before the jump that ends the pass, but for PC. -/
def beforeJump (op : AluOp) (s : State δ) : State δ :=
  let v := alu coreAux op (s.mem (s.index .de)) (s.mem s.hl) (hasCY s.f)
  let u := subWith coreAux s.b 1#8 false
  { s with
    a := v.1, b := u.1, f := flagsOf u.1 (hasAC u.2) (hasCY v.2)
    d := hiByte (s.index .de + 1), e := loByte (s.index .de + 1)
    h := hiByte (s.hl + 1), l := loByte (s.hl + 1)
    mem := Function.update s.mem s.hl v.1 }

theorem afterPass_eq (op : AluOp) (p : Word) (s : State δ) : afterPass op p s
    = { beforeJump op s with
        pc := if (beforeJump op s).b = 0#8 then p + BitVec.ofNat 16 9 else p } := rfl

theorem hasZ_beforeJump (op : AluOp) (s : State δ) :
    hasZ (beforeJump op s).f = ((beforeJump op s).b == 0#8) :=
  (hasFlags_packFlags _ _ _ _ _).2.1

end Isa

namespace Cpu8080

open Isa

variable {δ : Type} (ports : Ports δ)

/-- A step at byte `j` of a code whose byte `j` is an opcode. -/
theorem step_code_at {w : Work δ} {s : State δ} {p : Word} {code : List Byte} {j : Nat}
    (hs : w.arch = s.atByte p j) (hcode : CodeAt s.mem p code) {i : Instr}
    (hi : code[j]?.map decode = some i) (hdaa : i ≠ .daa) (hgo : i.stops = false) :
    (step ports w).2.arch = exec coreAux ports i (s.atByte p (j + 1))
      ∧ (step ports w).1 = 0 := by
  obtain ⟨b, hb, rfl⟩ := Option.map_eq_some_iff.mp hi
  obtain ⟨hj, rfl⟩ := List.getElem?_eq_some_iff.mp hb
  have himm : w.arch.imm = code[j] := by
    rw [hs]
    exact hcode j hj
  refine ⟨?_, ?_⟩
  · rw [step_arch ports (congrArg decode himm) hdaa, hs, next_atByte]
  · by_contra hne
    have hstop := (step_refines ports w fun h => hdaa (himm ▸ h)).2.mp hne
    rw [← himm] at hgo
    exact absurd (hgo.symm.trans hstop) Bool.false_ne_true

/-- The six instructions of a pass before its jump, over memory it does
not run in. -/
theorem pass_body {w : Work δ} {op : AluOp} {p : Word} (hpc : w.pc = p)
    (hcode : CodeAt w.mem p (loopCode op p)) (hclear : ∀ i < 9, w.hl ≠ p + BitVec.ofNat 16 i) :
    (after ports w 6).arch = (beforeJump op w.arch).atByte p 6
      ∧ ∀ j < 6, (step ports (after ports w j)).1 = 0 := by
  generalize hs : w.arch = s
  have hmem : w.mem = s.mem := by rw [← hs]; rfl
  have hhl : w.hl = s.hl := by rw [← hs]; rfl
  rw [hmem] at hcode
  rw [hhl] at hclear
  generalize hv : alu coreAux op (s.mem (s.index .de)) (s.mem s.hl) (hasCY s.f) = v
  have hcode' : CodeAt (Function.update s.mem s.hl v.1) p (loopCode op p) :=
    hcode.update hclear v.1
  -- the state before each instruction, PC at its opcode
  have h0 : (after ports w 0).arch = s.atByte p 0 := by
    have hp : p + BitVec.ofNat 16 0 = p := BitVec.add_zero p
    rw [after_zero, State.atByte, hp, ← hpc, ← hs]
    rfl
  obtain ⟨h1, hgo0⟩ := step_code_at ports h0 hcode (i := .ldax .de) rfl (by decide) rfl
  have h1 : (after ports w 1).arch = State.atByte { s with a := s.mem (s.index .de) } p 1 := h1
  obtain ⟨h2, hgo1⟩ := step_code_at ports h1 hcode (i := .alu op .m) (by cases op <;> rfl)
    (fun h => by cases h) rfl
  have h2 : (after ports w 2).arch = State.atByte { s with a := v.1, f := v.2 } p 2 := by
    rw [after_succ, h2, ← hv]
    rfl
  obtain ⟨h3, hgo2⟩ := step_code_at ports h2 hcode (i := .mov .m .a) rfl (by decide) rfl
  have h3 : (after ports w 3).arch = State.atByte
      { s with a := v.1, f := v.2, mem := Function.update s.mem s.hl v.1 } p 3 := h3
  obtain ⟨h4, hgo3⟩ := step_code_at ports h3 hcode' (i := .inx .hl) rfl (by decide) rfl
  have h4 : (after ports w 4).arch = State.atByte
      { s with
        a := v.1, f := v.2, mem := Function.update s.mem s.hl v.1
        h := hiByte (s.hl + 1), l := loByte (s.hl + 1) } p 4 := h4
  obtain ⟨h5, hgo4⟩ := step_code_at ports h4 hcode' (i := .inx .de) rfl (by decide) rfl
  have h5 : (after ports w 5).arch = State.atByte
      { s with
        a := v.1, f := v.2, mem := Function.update s.mem s.hl v.1
        d := hiByte (s.index .de + 1), e := loByte (s.index .de + 1)
        h := hiByte (s.hl + 1), l := loByte (s.hl + 1) } p 5 := h5
  obtain ⟨h6, hgo5⟩ := step_code_at ports h5 hcode' (i := .dcr .b) rfl (by decide) rfl
  refine ⟨?_, fun j hj => ?_⟩
  · rw [after_succ, h6, beforeJump, hv]
    rfl
  · have hcases : j = 0 ∨ j = 1 ∨ j = 2 ∨ j = 3 ∨ j = 4 ∨ j = 5 := by omega
    rcases hcases with rfl | rfl | rfl | rfl | rfl | rfl
    · exact hgo0
    · exact hgo1
    · exact hgo2
    · exact hgo3
    · exact hgo4
    · exact hgo5

/-- The jump goes back to the beginning until the count is 0. -/
theorem exec_jump {s : State δ} {op : AluOp} {p : Word} (hcode : CodeAt s.mem p (loopCode op p))
    (hz : hasZ s.f = (s.b == 0#8)) :
    exec coreAux ports (.jmpIf .nz) (s.atByte p 7)
      = { s with pc := if s.b = 0#8 then p + BitVec.ofNat 16 9 else p } := by
  by_cases hzero : s.b = 0#8
  · have hstay : Cond.nz.holds (s.atByte p 7).f = false := by
      rw [State.atByte, Cond.holds, hz, hzero]
      rfl
    rw [if_pos hzero, exec, hstay, if_neg Bool.false_ne_true, next_atByte, next_atByte]
    rfl
  · have hgo : Cond.nz.holds (s.atByte p 7).f = true := by
      rw [State.atByte, Cond.holds, hz]
      simpa using hzero
    have htarget : (s.atByte p 7).imm16 = p := by
      have hlo : s.mem (p + BitVec.ofNat 16 7) = loByte p := hcode 7 (by simp [loopCode])
      have hhi : s.mem (p + BitVec.ofNat 16 8) = hiByte p := hcode 8 (by simp [loopCode])
      have hpc8 : p + BitVec.ofNat 16 7 + 1 = p + BitVec.ofNat 16 8 := by
        rw [BitVec.add_assoc]
        rfl
      show word (s.mem (p + BitVec.ofNat 16 7 + 1)) (s.mem (p + BitVec.ofNat 16 7)) = p
      rw [hpc8, hlo, hhi, word_hiByte_loByte]
    rw [if_neg hzero, exec, hgo, if_pos rfl, execJmp, jumpTo, htarget]
    rfl

/-- One pass of the loop, over memory it does not run in. -/
theorem pass {w : Work δ} {op : AluOp} {p : Word} (hpc : w.pc = p)
    (hcode : CodeAt w.mem p (loopCode op p)) (hclear : ∀ i < 9, w.hl ≠ p + BitVec.ofNat 16 i) :
    (after ports w 7).arch = afterPass op p w.arch
      ∧ ∀ j < 7, (step ports (after ports w j)).1 = 0 := by
  obtain ⟨hbody, hgo⟩ := pass_body ports hpc hcode hclear
  have hcode' : CodeAt (beforeJump op w.arch).mem p (loopCode op p) := hcode.update hclear _
  obtain ⟨hjump, hgo6⟩ := step_code_at ports hbody hcode' (i := .jmpIf .nz) rfl (by decide) rfl
  refine ⟨?_, fun j hj => ?_⟩
  · rw [after_succ, hjump, exec_jump ports hcode' (hasZ_beforeJump op _), afterPass_eq]
  · rcases Nat.lt_succ_iff_lt_or_eq.mp hj with hlt | rfl
    · exact hgo j hlt
    · exact hgo6

/-! ## One digit -/

/-- Addition or subtraction. -/
def sign : AluOp → Int
  | .sub | .sbb | .cmp => -1
  | _ => 1

theorem adc_digit (a v : Byte) (c : Bool) :
    ((alu coreAux .adc a v c).1.toNat : Int) + 256 * (hasCY (alu coreAux .adc a v c).2).toNat
      = a.toNat + (v.toNat + c.toNat) := by
  have ha := a.isLt
  have hv := v.isLt
  have hc := Bool.toNat_le c
  rw [alu, addWith, hasCY_flagsOf, BitVec.toNat_ofNat]
  by_cases hcy : 256 ≤ a.toNat + v.toNat + c.toNat
  · rw [decide_eq_true hcy, Bool.toNat_true]
    omega
  · rw [decide_eq_false hcy, Bool.toNat_false]
    omega

theorem sbb_digit (a v : Byte) (c : Bool) :
    ((alu coreAux .sbb a v c).1.toNat : Int) - 256 * (hasCY (alu coreAux .sbb a v c).2).toNat
      = a.toNat - (v.toNat + c.toNat) := by
  have ha := a.isLt
  have hv := v.isLt
  have hc := Bool.toNat_le c
  rw [alu, subWith, hasCY_flagsOf, BitVec.toNat_ofInt]
  by_cases hcy : (a.toNat : Int) - v.toNat - c.toNat < 0
  · rw [decide_eq_true hcy, Bool.toNat_true]
    omega
  · rw [decide_eq_false hcy, Bool.toNat_false]
    omega

theorem digit {op : AluOp} (hop : op = .adc ∨ op = .sbb) (a v : Byte) (c : Bool) :
    ((alu coreAux op a v c).1.toNat : Int)
        + sign op * 256 * (hasCY (alu coreAux op a v c).2).toNat
      = a.toNat + sign op * (v.toNat + c.toNat) := by
  rcases hop with rfl | rfl
  · have h := adc_digit a v c
    simp only [sign]
    omega
  · have h := sbb_digit a v c
    simp only [sign]
    omega

theorem dec_ofNat {m : Nat} (hm : 0 < m) :
    (subWith coreAux (BitVec.ofNat 8 m) 1#8 false).1 = BitVec.ofNat 8 (m - 1) := by
  simp only [subWith]
  apply BitVec.eq_of_toNat_eq
  simp only [BitVec.toNat_ofInt, BitVec.toNat_ofNat, Bool.toNat_false]
  omega

/-! ## The passes together -/

/-- What holds after `k` of the `n` passes, from the registers and the
memory the loop began with. -/
structure Passed (op : AluOp) (p : Word) (n : Nat) (s₀ : State δ) (k : Nat) (s : State δ) :
    Prop where
  pc : s.pc = if k = n then p + BitVec.ofNat 16 9 else p
  counter : s.b = BitVec.ofNat 8 (n - k)
  source : s.index .de = s₀.index .de + BitVec.ofNat 16 k
  target : s.hl = s₀.hl + BitVec.ofNat 16 k
  frame : ∀ a, (∀ i < k, a ≠ s₀.hl + BitVec.ofNat 16 i) → s.mem a = s₀.mem a
  value : (valueAt s.mem s₀.hl k : Int) + sign op * 256 ^ k * (hasCY s.f).toNat
    = valueAt s₀.mem (s₀.index .de) k + sign op * (valueAt s₀.mem s₀.hl k + (hasCY s₀.f).toNat)

/-- The registers and the memory at the beginning of the loop at `p`:
the count in B, and the two buffers apart, the one that is written also
from the code. -/
structure LoopStart (op : AluOp) (p : Word) (n : Nat) (s : State δ) : Prop where
  pc : s.pc = p
  code : CodeAt s.mem p (loopCode op p)
  pos : 1 ≤ n
  le : n ≤ 256
  counter : s.b = BitVec.ofNat 8 n
  buffers : BuffersApart s.hl n (s.index .de) n
  clear : BuffersApart s.hl n p 9

theorem LoopStart.passed {op : AluOp} {p : Word} {n : Nat} {s : State δ}
    (h : LoopStart op p n s) : Passed op p n s 0 s := by
  refine ⟨?_, h.counter, ?_, ?_, fun a _ => rfl, ?_⟩
  · rw [h.pc, if_neg (Nat.ne_of_lt h.pos)]
  · exact (BitVec.add_zero _).symm
  · exact (BitVec.add_zero _).symm
  · simp [valueAt, bytesAt, Digits.total]

theorem Passed.next {op : AluOp} (hop : op = .adc ∨ op = .sbb) {p : Word} {n k : Nat}
    {s₀ s : State δ} (hs : LoopStart op p n s₀) (h : Passed op p n s₀ k s) (hk : k < n) :
    Passed op p n s₀ (k + 1) (afterPass op p s) := by
  have hn := hs.le
  have hfresh : ∀ i < k, s₀.hl + BitVec.ofNat 16 k ≠ s₀.hl + BitVec.ofNat 16 i := by
    intro i hi heq
    exact absurd (offset_inj (by omega) (by omega) heq) (Nat.ne_of_gt hi)
  have hx : s.mem (s.index .de) = s₀.mem (s₀.index .de + BitVec.ofNat 16 k) := by
    rw [h.source]
    exact h.frame _ fun i hi => (hs.buffers i (hi.trans hk) k hk).symm
  have hy : s.mem s.hl = s₀.mem (s₀.hl + BitVec.ofNat 16 k) := by
    rw [h.target]
    exact h.frame _ hfresh
  have hdec : (subWith coreAux s.b 1#8 false).1 = BitVec.ofNat 8 (n - (k + 1)) := by
    rw [h.counter, dec_ofNat (by omega)]
    rfl
  refine ⟨?_, hdec, ?_, ?_, fun a ha => ?_, ?_⟩
  · have hzero : BitVec.ofNat 8 (n - (k + 1)) = 0#8 ↔ k + 1 = n := by
      rw [← BitVec.toNat_inj, BitVec.toNat_ofNat]
      simp only [BitVec.toNat_ofNat]
      omega
    simp only [afterPass, hdec, hzero]
  · have hnext : (afterPass op p s).index .de = s.index .de + 1 := word_hiByte_loByte _
    rw [hnext, h.source, BitVec.add_assoc, BitVec.ofNat_add]
    rfl
  · have hnext : (afterPass op p s).hl = s.hl + 1 := word_hiByte_loByte _
    rw [hnext, h.target, BitVec.add_assoc, BitVec.ofNat_add]
    rfl
  · have hne : a ≠ s.hl := by
      rw [h.target]
      exact ha k (Nat.lt_succ_self k)
    have hupd : (afterPass op p s).mem a = s.mem a := Function.update_of_ne hne _ _
    rw [hupd]
    exact h.frame a fun i hi => ha i (Nat.lt_succ_of_lt hi)
  · generalize hv : alu coreAux op (s.mem (s.index .de)) (s.mem s.hl) (hasCY s.f) = v
    have hcy : hasCY (afterPass op p s).f = hasCY v.2 := by
      rw [← hv]
      exact hasCY_flagsOf _ _ _
    have hmem : (afterPass op p s).mem
        = Function.update s.mem (s₀.hl + BitVec.ofNat 16 k) v.1 := by
      rw [← h.target, ← hv]
      rfl
    have hlow : valueAt (afterPass op p s).mem s₀.hl k = valueAt s.mem s₀.hl k := by
      refine valueAt_congr fun i hi => ?_
      rw [hmem, Function.update_of_ne (hfresh i hi).symm]
    have hdigit := digit hop (s.mem (s.index .de)) (s.mem s.hl) (hasCY s.f)
    rw [hv, hx, hy] at hdigit
    have hvalue := h.value
    rw [valueAt_succ, valueAt_succ, valueAt_succ, hlow, hcy, hmem, Function.update_self, pow_succ]
    push_cast
    linear_combination hvalue + (256 ^ k : Int) * hdigit

/-- The passes one after the other; none of their steps stops the run. -/
theorem passes {op : AluOp} (hop : op = .adc ∨ op = .sbb) {p : Word} {n : Nat} {w : Work δ}
    (hs : LoopStart op p n w.arch) : ∀ k ≤ n,
      Passed op p n w.arch k (after ports w (7 * k)).arch
        ∧ ∀ j < 7 * k, (step ports (after ports w j)).1 = 0
  | 0, _ => ⟨hs.passed, fun j hj => absurd hj (Nat.not_lt_zero j)⟩
  | k + 1, hk => by
      obtain ⟨hpassed, hgo⟩ := passes hop hs k (Nat.le_of_succ_le hk)
      have hn := hs.le
      have hcode : CodeAt (after ports w (7 * k)).mem p (loopCode op p) := by
        intro i hi
        rw [← hs.code i hi]
        exact hpassed.frame _ fun j hj => (hs.clear j (by omega) i hi).symm
      have hclear : ∀ i < 9, (after ports w (7 * k)).hl ≠ p + BitVec.ofNat 16 i := by
        intro i hi
        have htarget : (after ports w (7 * k)).hl = w.arch.hl + BitVec.ofNat 16 k := hpassed.target
        rw [htarget]
        exact hs.clear k (by omega) i hi
      have hpc : (after ports w (7 * k)).pc = p := by
        have hat : (after ports w (7 * k)).pc = if k = n then p + BitVec.ofNat 16 9 else p :=
          hpassed.pc
        rw [hat, if_neg (by omega)]
      obtain ⟨hpass, hgo'⟩ := pass ports hpc hcode hclear
      rw [Nat.mul_succ, after_add, hpass]
      refine ⟨hpassed.next hop hs hk, fun j hj => ?_⟩
      by_cases hlt : j < 7 * k
      · exact hgo j hlt
      · obtain ⟨i, rfl⟩ := Nat.exists_eq_add_of_le (Nat.le_of_not_lt hlt)
        rw [after_add]
        exact hgo' i (by omega)

/-- What both loops leave, whatever they compute: PC just past the loop,
no stop on the way, the source buffer as it was, and the value of the
target buffer with the carry as the exact result. -/
theorem loop_done {op : AluOp} (hop : op = .adc ∨ op = .sbb) {p : Word} {n : Nat} {w : Work δ}
    (hs : LoopStart op p n w.arch) :
    (after ports w (7 * n)).pc = p + 9
      ∧ (∀ j < 7 * n, (step ports (after ports w j)).1 = 0)
      ∧ (∀ i < n, (after ports w (7 * n)).mem (w.de + BitVec.ofNat 16 i)
          = w.mem (w.de + BitVec.ofNat 16 i))
      ∧ (valueAt (after ports w (7 * n)).mem w.hl n : Int)
          + sign op * 256 ^ n * (hasCY (after ports w (7 * n)).f).toNat
        = valueAt w.mem w.de n + sign op * (valueAt w.mem w.hl n + (hasCY w.f).toNat) := by
  obtain ⟨hpassed, hgo⟩ := passes ports hop hs n (Nat.le_refl n)
  refine ⟨?_, hgo, fun i hi => ?_, hpassed.value⟩
  · have hpc := hpassed.pc
    rw [if_pos rfl] at hpc
    exact hpc
  · exact hpassed.frame _ fun j hj => (hs.buffers j hj i hi).symm

/-- An exact sum, cut to a number below `B` and a carry. -/
theorem sum_split {v x y c B : Nat} {cy : Bool} (hv : v < B)
    (h : (v : Int) + 1 * B * cy.toNat = x + 1 * (y + c)) :
    v = (x + y + c) % B ∧ cy.toNat = (x + y + c) / B := by
  have hsum : x + y + c = v + B * cy.toNat := by
    have : ((x + y + c : Nat) : Int) = (v + B * cy.toNat : Nat) := by
      push_cast
      linear_combination -h
    exact_mod_cast this
  rw [hsum, Nat.add_mul_mod_self_left, Nat.mod_eq_of_lt hv,
    Nat.add_mul_div_left _ _ (Nat.zero_lt_of_lt hv), Nat.div_eq_of_lt hv, Nat.zero_add]
  exact ⟨rfl, rfl⟩

/-- An exact difference, cut to a number below `B` and a borrow. -/
theorem difference_split {v x y c B : Nat} {cy : Bool} (hv : v < B)
    (h : (v : Int) + -1 * B * cy.toNat = x + -1 * (y + c)) :
    (v : Int) = ((x : Int) - y - c) % B ∧ (cy = true ↔ x < y + c) := by
  have hdiff : (x : Int) - y - c = v + B * -(cy.toNat : Int) := by linear_combination -h
  refine ⟨?_, ?_⟩
  · rw [hdiff, Int.add_mul_emod_self_left, Int.emod_eq_of_lt (by omega) (by omega)]
  · cases cy with
    | true =>
        simp only [Bool.toNat_true] at h
        constructor <;> intro <;> first | rfl | omega
    | false =>
        simp only [Bool.toNat_false] at h
        constructor <;> intro hlt
        · cases hlt
        · omega

/-- Seven steps a byte: the loop over ADC leaves the sum of the two
numbers and CY in the target buffer, cut to its length, and the rest in
CY; the loop over SBB leaves the difference, and the borrow. -/
theorem multi_precision (w : Work δ) (p : Word) (n : Nat) :
    (LoopStart .adc p n w.arch →
        (after ports w (7 * n)).pc = p + 9
        ∧ (∀ j < 7 * n, (step ports (after ports w j)).1 = 0)
        ∧ (∀ i < n, (after ports w (7 * n)).mem (w.de + BitVec.ofNat 16 i)
            = w.mem (w.de + BitVec.ofNat 16 i))
        ∧ valueAt (after ports w (7 * n)).mem w.hl n
          = (valueAt w.mem w.de n + valueAt w.mem w.hl n + (hasCY w.f).toNat) % 256 ^ n
        ∧ (hasCY (after ports w (7 * n)).f).toNat
          = (valueAt w.mem w.de n + valueAt w.mem w.hl n + (hasCY w.f).toNat) / 256 ^ n)
      ∧ (LoopStart .sbb p n w.arch →
        (after ports w (7 * n)).pc = p + 9
        ∧ (∀ j < 7 * n, (step ports (after ports w j)).1 = 0)
        ∧ (∀ i < n, (after ports w (7 * n)).mem (w.de + BitVec.ofNat 16 i)
            = w.mem (w.de + BitVec.ofNat 16 i))
        ∧ (valueAt (after ports w (7 * n)).mem w.hl n : Int)
          = ((valueAt w.mem w.de n : Int) - valueAt w.mem w.hl n - (hasCY w.f).toNat) % 256 ^ n
        ∧ (hasCY (after ports w (7 * n)).f = true
          ↔ valueAt w.mem w.de n < valueAt w.mem w.hl n + (hasCY w.f).toNat)) := by
  have hlt := valueAt_lt (after ports w (7 * n)).mem w.hl n
  refine ⟨fun hs => ?_, fun hs => ?_⟩
  · obtain ⟨hpc, hgo, hkeep, hvalue⟩ := loop_done ports (.inl rfl) hs
    obtain ⟨hmod, hdiv⟩ := sum_split hlt hvalue
    exact ⟨hpc, hgo, hkeep, hmod, hdiv⟩
  · obtain ⟨hpc, hgo, hkeep, hvalue⟩ := loop_done ports (.inr rfl) hs
    obtain ⟨hmod, hborrow⟩ := difference_split hlt hvalue
    exact ⟨hpc, hgo, hkeep, hmod, hborrow⟩

/-- The loop at 100h, 1234h across the end of memory as the source and
00FFh at 10h as the target. -/
def twoBytes (op : AluOp) : Work Unit :=
  { Work.cold (fun addr =>
      if addr = 0xffff#16 then 0x34#8 else if addr = 0#16 then 0x12#8
      else if addr = 0x0010#16 then 0xff#8
      else (loopCode op 0x0100#16).getD (addr - 0x0100#16).toNat 0#8) with
    pc := 0x0100#16, b := 2, d := 0xff#8, e := 0xff#8, l := 0x10#8 }

theorem twoBytes_start {op : AluOp} (hop : op = .adc ∨ op = .sbb) :
    LoopStart op 0x0100#16 2 (twoBytes op).arch := by
  rcases hop with rfl | rfl
  all_goals
    refine ⟨rfl, ?_, by decide, by decide, rfl, ?_, ?_⟩
    · unfold CodeAt
      decide
    · unfold BuffersApart
      decide
    · unfold BuffersApart
      decide

/-- 1234h + 00FFh and 1234h - 00FFh. -/
theorem multi_precision_two :
    valueAt (after .idle (twoBytes .adc) 14).mem 0x0010#16 2 = 0x1333
      ∧ valueAt (after .idle (twoBytes .sbb) 14).mem 0x0010#16 2 = 0x1135
      ∧ hasCY (after .idle (twoBytes .sbb) 14).f = false := by
  obtain ⟨-, -, -, hsum, -⟩ :=
    (multi_precision .idle (twoBytes .adc) 0x0100#16 2).1 (twoBytes_start (.inl rfl))
  obtain ⟨-, -, -, hdiff, hborrow⟩ :=
    (multi_precision .idle (twoBytes .sbb) 0x0100#16 2).2 (twoBytes_start (.inr rfl))
  refine ⟨hsum, ?_, ?_⟩
  · have hvalue : (valueAt (after .idle (twoBytes .sbb) 14).mem 0x0010#16 2 : Int) = 0x1135 := hdiff
    exact_mod_cast hvalue
  · rw [Bool.eq_false_iff, ne_eq, hborrow]
    decide

end Cpu8080

end CpMega88
