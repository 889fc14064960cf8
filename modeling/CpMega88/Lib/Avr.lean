import CpMega88.Lib.Bytes
import CpMega88.Lib.Runs

/-!
# AVR instructions

The register and status semantics of the AVR instructions that
straight-line eight-bit code uses, as actions on a machine state. What
the machine is attached to is a parameter (`ε`); memory-mapped effects
and called C functions are actions on it.

A routine is written as a `do` block of these actions; a branch on a
flag is an `if` on `flagC`, `flagZ`, …, a skip on a register bit an `if`
on `bit`. Calls nest in the meta-language, so the hardware stack only
holds what PUSH put there.

The library ends with the two idioms for sixteen-bit numbers in a
register pair: ADD/ADC and SUB/SBC with the carry handed over in C.
-/

namespace Avr

open Bytes Runs

/-! ## States -/

/-- The status register, from bit 0 up. -/
structure Sreg where
  c : Bool
  z : Bool
  n : Bool
  v : Bool
  s : Bool
  h : Bool
  t : Bool
  i : Bool
deriving DecidableEq

structure State (ε : Type) where
  r : Fin 32 → Byte
  sreg : Sreg
  stack : List Byte
  bus : ε

abbrev AvrM (ε : Type) := StateM (State ε)

variable {ε : Type}

def Sreg.toByte (f : Sreg) : Byte :=
  BitVec.ofBoolListLE [f.c, f.z, f.n, f.v, f.s, f.h, f.t, f.i]

def Sreg.ofByte (b : Byte) : Sreg where
  c := b.getLsbD 0
  z := b.getLsbD 1
  n := b.getLsbD 2
  v := b.getLsbD 3
  s := b.getLsbD 4
  h := b.getLsbD 5
  t := b.getLsbD 6
  i := b.getLsbD 7

@[simp] theorem Sreg.ofByte_toByte (f : Sreg) : ofByte f.toByte = f := by
  obtain ⟨c, z, n, v, s, h, t, i⟩ := f
  cases c <;> cases z <;> cases n <;> cases v <;> cases s <;> cases h <;> cases t <;> cases i <;>
    decide

namespace State

def set (s : State ε) (d : Fin 32) (v : Byte) : State ε :=
  { s with r := Function.update s.r d v }

def setSreg (s : State ε) (f : Sreg) : State ε := { s with sreg := f }

theorem set_r (s : State ε) (d : Fin 32) (v : Byte) (i : Fin 32) :
    (s.set d v).r i = if i = d then v else s.r i :=
  Function.update_apply s.r d v i

@[simp] theorem set_r_self (s : State ε) (d : Fin 32) (v : Byte) : (s.set d v).r d = v := by
  rw [set_r, if_pos rfl]

theorem set_r_of_ne (s : State ε) {d i : Fin 32} (h : i ≠ d) (v : Byte) :
    (s.set d v).r i = s.r i := by
  rw [set_r, if_neg h]

theorem set_self (s : State ε) (d : Fin 32) : s.set d (s.r d) = s := by
  rw [set, Function.update_eq_self]

theorem set_set (s : State ε) (d : Fin 32) (v w : Byte) : (s.set d v).set d w = s.set d w := by
  simp only [set, Function.update_idem]

@[simp] theorem set_sreg (s : State ε) (d : Fin 32) (v : Byte) : (s.set d v).sreg = s.sreg := rfl
@[simp] theorem set_stack (s : State ε) (d : Fin 32) (v : Byte) :
    (s.set d v).stack = s.stack := rfl
@[simp] theorem set_bus (s : State ε) (d : Fin 32) (v : Byte) : (s.set d v).bus = s.bus := rfl
@[simp] theorem setSreg_r (s : State ε) (f : Sreg) : (s.setSreg f).r = s.r := rfl
@[simp] theorem setSreg_sreg (s : State ε) (f : Sreg) : (s.setSreg f).sreg = f := rfl
@[simp] theorem setSreg_stack (s : State ε) (f : Sreg) : (s.setSreg f).stack = s.stack := rfl
@[simp] theorem setSreg_bus (s : State ε) (f : Sreg) : (s.setSreg f).bus = s.bus := rfl

end State

/-! ## Status after an operation -/

namespace Sreg

/-- Z, N, V and S = N ⊕ V of a result. -/
def result (f : Sreg) (r : Byte) (v : Bool) : Sreg :=
  { f with z := r == 0#8, n := r.msb, v := v, s := r.msb ^^ v }

/-- After `a + b + c`. -/
def add (f : Sreg) (a b : Byte) (c : Bool) : Sreg :=
  let r := BitVec.ofNat 8 (a.toNat + b.toNat + c.toNat)
  { f.result r (a.msb == b.msb && r.msb != a.msb) with
    h := 16 ≤ a.toNat % 16 + b.toNat % 16 + c.toNat
    c := 256 ≤ a.toNat + b.toNat + c.toNat }

/-- After `a - b - c`. -/
def sub (f : Sreg) (a b : Byte) (c : Bool) : Sreg :=
  let r := BitVec.ofInt 8 (a.toNat - b.toNat - c.toNat)
  { f.result r (a.msb != b.msb && r.msb != a.msb) with
    h := a.toNat % 16 < b.toNat % 16 + c.toNat
    c := a.toNat < b.toNat + c.toNat }

/-- After a logical operation. -/
def logic (f : Sreg) (r : Byte) : Sreg := f.result r false

end Sreg

/-! ## Instructions -/

def sumByte (a b : Byte) (c : Bool) : Byte := BitVec.ofNat 8 (a.toNat + b.toNat + c.toNat)

def diffByte (a b : Byte) (c : Bool) : Byte := BitVec.ofInt 8 (a.toNat - b.toNat - c.toNat)

def mov (d r : Fin 32) : AvrM ε Unit := modify fun s => s.set d (s.r r)

def ldi (d : Fin 32) (k : Byte) : AvrM ε Unit := modify fun s => s.set d k

def add (d r : Fin 32) : AvrM ε Unit := modify fun s =>
  (s.set d (sumByte (s.r d) (s.r r) false)).setSreg (s.sreg.add (s.r d) (s.r r) false)

def adc (d r : Fin 32) : AvrM ε Unit := modify fun s =>
  (s.set d (sumByte (s.r d) (s.r r) s.sreg.c)).setSreg (s.sreg.add (s.r d) (s.r r) s.sreg.c)

def sub (d r : Fin 32) : AvrM ε Unit := modify fun s =>
  (s.set d (diffByte (s.r d) (s.r r) false)).setSreg (s.sreg.sub (s.r d) (s.r r) false)

/-- A zero result leaves Z as it was: Z then speaks for all the bytes of
a multi-byte subtraction. -/
def sbc (d r : Fin 32) : AvrM ε Unit := modify fun s =>
  let f := s.sreg.sub (s.r d) (s.r r) s.sreg.c
  (s.set d (diffByte (s.r d) (s.r r) s.sreg.c)).setSreg { f with z := s.sreg.z && f.z }

def subi (d : Fin 32) (k : Byte) : AvrM ε Unit := modify fun s =>
  (s.set d (diffByte (s.r d) k false)).setSreg (s.sreg.sub (s.r d) k false)

def cp (d r : Fin 32) : AvrM ε Unit := modify fun s =>
  s.setSreg (s.sreg.sub (s.r d) (s.r r) false)

def cpi (d : Fin 32) (k : Byte) : AvrM ε Unit := modify fun s =>
  s.setSreg (s.sreg.sub (s.r d) k false)

def and (d r : Fin 32) : AvrM ε Unit := modify fun s =>
  (s.set d (s.r d &&& s.r r)).setSreg (s.sreg.logic (s.r d &&& s.r r))

def andi (d : Fin 32) (k : Byte) : AvrM ε Unit := modify fun s =>
  (s.set d (s.r d &&& k)).setSreg (s.sreg.logic (s.r d &&& k))

def or (d r : Fin 32) : AvrM ε Unit := modify fun s =>
  (s.set d (s.r d ||| s.r r)).setSreg (s.sreg.logic (s.r d ||| s.r r))

def eor (d r : Fin 32) : AvrM ε Unit := modify fun s =>
  (s.set d (s.r d ^^^ s.r r)).setSreg (s.sreg.logic (s.r d ^^^ s.r r))

/-- ORI, under its name for setting bits. -/
def sbr (d : Fin 32) (k : Byte) : AvrM ε Unit := modify fun s =>
  (s.set d (s.r d ||| k)).setSreg (s.sreg.logic (s.r d ||| k))

/-- ANDI with the complement: clears bits. -/
def cbr (d : Fin 32) (k : Byte) : AvrM ε Unit := andi d (~~~k)

def com (d : Fin 32) : AvrM ε Unit := modify fun s =>
  (s.set d (~~~s.r d)).setSreg { s.sreg.logic (~~~s.r d) with c := true }

def inc (d : Fin 32) : AvrM ε Unit := modify fun s =>
  (s.set d (s.r d + 1#8)).setSreg (s.sreg.result (s.r d + 1#8) (s.r d == 0x7f#8))

def dec (d : Fin 32) : AvrM ε Unit := modify fun s =>
  (s.set d (s.r d - 1#8)).setSreg (s.sreg.result (s.r d - 1#8) (s.r d == 0x80#8))

def lsr (d : Fin 32) : AvrM ε Unit := modify fun s =>
  (s.set d (s.r d >>> 1)).setSreg
    { s.sreg.result (s.r d >>> 1) ((s.r d).getLsbD 0) with c := (s.r d).getLsbD 0 }

/-- ADC of a register to itself. -/
def rol (d : Fin 32) : AvrM ε Unit := adc d d

def rorByte (a : Byte) (c : Bool) : Byte := (if c then 0x80#8 else 0#8) ||| a >>> 1

def ror (d : Fin 32) : AvrM ε Unit := modify fun s =>
  (s.set d (rorByte (s.r d) s.sreg.c)).setSreg
    { s.sreg.result (rorByte (s.r d) s.sreg.c) (s.sreg.c ^^ (s.r d).getLsbD 0) with
      c := (s.r d).getLsbD 0 }

def clc : AvrM ε Unit := modify fun s => s.setSreg { s.sreg with c := false }

def sec : AvrM ε Unit := modify fun s => s.setSreg { s.sreg with c := true }

def sez : AvrM ε Unit := modify fun s => s.setSreg { s.sreg with z := true }

/-- `in d, SREG`. -/
def inSreg (d : Fin 32) : AvrM ε Unit := modify fun s => s.set d s.sreg.toByte

/-- `out SREG, r`. -/
def outSreg (r : Fin 32) : AvrM ε Unit := modify fun s => s.setSreg (.ofByte (s.r r))

def push (r : Fin 32) : AvrM ε Unit := modify fun s => { s with stack := s.r r :: s.stack }

def pop (d : Fin 32) : AvrM ε Unit := modify fun s =>
  { s.set d (s.stack.headD 0#8) with stack := s.stack.tail }

def flagC : AvrM ε Bool := return (← get).sreg.c

def flagZ : AvrM ε Bool := return (← get).sreg.z

def flagN : AvrM ε Bool := return (← get).sreg.n

def flagH : AvrM ε Bool := return (← get).sreg.h

/-- Bit `b` of a register, for SBRC and SBRS. -/
def bit (r : Fin 32) (b : Nat) : AvrM ε Bool := return ((← get).r r).getLsbD b

/-! ## C functions -/

/-- The registers a C function may change. -/
def callUsed (i : Fin 32) : Bool := i == 0 || (18 ≤ i && i ≤ 27) || 30 ≤ i

/-- The caller's view after a C function has left `junk` in the
registers it may change and `reply` in r24. -/
def callC (junk : (Fin 32 → Byte) × Sreg) (reply : Byte) (bus : ε) : AvrM ε Unit :=
  modify fun s =>
    { s with
      r := fun i => if i = 24 then reply else if callUsed i then junk.1 i else s.r i
      sreg := junk.2
      bus := bus }

/-! ## Sixteen-bit numbers in register pairs -/

def State.pair (s : State ε) (hi lo : Fin 32) : Word := word (s.r hi) (s.r lo)

def State.setPair (s : State ε) (hi lo : Fin 32) (w : Word) : State ε :=
  (s.set lo (loByte w)).set hi (hiByte w)

theorem sumByte_carry (h₁ l₁ h₂ l₂ : Byte) :
    sumByte l₁ l₂ false = loByte (word h₁ l₁ + word h₂ l₂)
      ∧ sumByte h₁ h₂ (256 ≤ l₁.toNat + l₂.toNat + false.toNat)
        = hiByte (word h₁ l₁ + word h₂ l₂)
      ∧ decide (256 ≤ h₁.toNat + h₂.toNat
          + (decide (256 ≤ l₁.toNat + l₂.toNat + false.toNat)).toNat)
        = decide (65536 ≤ (word h₁ l₁).toNat + (word h₂ l₂).toNat) := by
  have := l₁.isLt
  have := l₂.isLt
  have hc : (decide (256 ≤ l₁.toNat + l₂.toNat + false.toNat)).toNat
      = (l₁.toNat + l₂.toNat) / 256 := by
    by_cases h : 256 ≤ l₁.toNat + l₂.toNat
    · simp only [Bool.toNat_false, Nat.add_zero, h, decide_true, Bool.toNat_true]
      omega
    · simp only [Bool.toNat_false, Nat.add_zero, h, decide_false, Bool.toNat_false]
      omega
  have hlo : sumByte l₁ l₂ false = l₁ + l₂ := by
    simp [sumByte, BitVec.ofNat_add]
  have hhi : sumByte h₁ h₂ (256 ≤ l₁.toNat + l₂.toNat + false.toNat)
      = h₁ + h₂ + BitVec.ofNat 8 ((l₁.toNat + l₂.toNat) / 256) := by
    rw [sumByte, hc, BitVec.ofNat_add, BitVec.ofNat_add, BitVec.ofNat_toNat, BitVec.ofNat_toNat,
      BitVec.setWidth_eq, BitVec.setWidth_eq]
  refine ⟨?_, ?_, ?_⟩
  · rw [hlo, ← word_add_carry, loByte_word]
  · rw [hhi, ← word_add_carry, hiByte_word]
  · rw [hc, decide_eq_decide]
    simp only [toNat_word]
    omega

theorem diffByte_borrow (h₁ l₁ h₂ l₂ : Byte) :
    diffByte l₁ l₂ false = loByte (word h₁ l₁ - word h₂ l₂)
      ∧ diffByte h₁ h₂ (l₁.toNat < l₂.toNat + false.toNat)
        = hiByte (word h₁ l₁ - word h₂ l₂) := by
  have hlo : diffByte l₁ l₂ false = l₁ - l₂ := by
    apply BitVec.eq_of_toNat_eq
    simp only [diffByte, BitVec.toNat_ofInt, BitVec.toNat_sub, Bool.toNat_false]
    omega
  have hhi : diffByte h₁ h₂ (l₁.toNat < l₂.toNat + false.toNat)
      = h₁ - h₂ - BitVec.ofNat 8 (if l₁.toNat < l₂.toNat then 1 else 0) := by
    apply BitVec.eq_of_toNat_eq
    have := h₁.isLt
    have := h₂.isLt
    by_cases h : l₁.toNat < l₂.toNat
    · simp only [diffByte, Bool.toNat_false, Nat.add_zero, h, decide_true, Bool.toNat_true,
        BitVec.toNat_ofInt, BitVec.toNat_sub, if_true, BitVec.toNat_ofNat]
      omega
    · simp only [diffByte, Bool.toNat_false, Nat.add_zero, h, decide_false, Bool.toNat_false,
        BitVec.toNat_ofInt, BitVec.toNat_sub, if_false, BitVec.toNat_ofNat]
      omega
  rw [hlo, hhi, ← word_sub_borrow h₁ l₁ h₂ l₂, loByte_word, hiByte_word]
  exact ⟨rfl, rfl⟩

/-- ADD on the low registers, then ADC on the high ones. -/
theorem add_adc_run (s : State ε) {hi lo hi' lo' : Fin 32} (h : hi ≠ lo) (h' : hi' ≠ lo) :
    ∃ f : Sreg, f.c = decide (65536 ≤ (s.pair hi lo).toNat + (s.pair hi' lo').toNat)
      ∧ adc hi hi' (add lo lo' s).2
        = ((), (s.setPair hi lo (s.pair hi lo + s.pair hi' lo')).setSreg f) := by
  obtain ⟨hlo, hhi, hcy⟩ := sumByte_carry (s.r hi) (s.r lo) (s.r hi') (s.r lo')
  refine ⟨(adc hi hi' (add lo lo' s).2).2.sreg, ?_, ?_⟩
  · rw [State.pair, State.pair, ← hcy]
    simp only [adc, add, modify_run, State.setSreg_sreg, State.setSreg_r, State.set_r_of_ne s h,
      State.set_r_of_ne s h', Sreg.add]
  · rw [State.setPair, State.pair, State.pair, ← hlo, ← hhi]
    simp only [adc, add, modify_run, State.setSreg_sreg, State.setSreg_r, State.set_r_of_ne s h,
      State.set_r_of_ne s h', Sreg.add]
    rfl

/-- SUB on the low registers, then SBC on the high ones. -/
theorem sub_sbc_run (s : State ε) {hi lo hi' lo' : Fin 32} (h : hi ≠ lo) (h' : hi' ≠ lo) :
    ∃ f : Sreg, sbc hi hi' (sub lo lo' s).2
        = ((), (s.setPair hi lo (s.pair hi lo - s.pair hi' lo')).setSreg f) := by
  obtain ⟨hlo, hhi⟩ := diffByte_borrow (s.r hi) (s.r lo) (s.r hi') (s.r lo')
  refine ⟨(sbc hi hi' (sub lo lo' s).2).2.sreg, ?_⟩
  rw [State.setPair, State.pair, State.pair, ← hlo, ← hhi]
  simp only [sbc, sub, modify_run, State.setSreg_sreg, State.setSreg_r, State.set_r_of_ne s h,
    State.set_r_of_ne s h', Sreg.sub]
  rfl

end Avr
