import CpMega88.Lib.Bytes
import CpMega88.Lib.Runs
import CpMega88.Lib.SerialLine
import Mathlib.Tactic.IntervalCases

/-!
# The software UART on its line

`con_avr_uart_asm.S` cycle by cycle: `uart_tx`, which sends a byte and
takes in the one that may come at the same time, and `uart_rx`, which is
called when a start bit has come. `line` is the level of the receiving pin
in every cycle, `port` that of the sending one; IN finds the level of the
cycle before, and SBI and CBI show at the end of their second cycle.

`uart_tx` sends the same frame whatever comes in (`uartTx_port`). How long
its bits are depends on the clock: the loop at 16 MHz counts to 27 where its
comment counts to 25.
-/

namespace CpMega88

open Bytes Runs SerialLine

namespace UartLine

/-- `CLK_20MHZ` or `CLK_16MHZ`. -/
inductive Clock where
  | mhz20
  | mhz16
deriving DecidableEq

/-- What `uart_tx` knows of the byte that comes in. -/
structure Receiver where
  /-- r20: 0 while there is none, else the phase to sample in. -/
  mode : Byte
  /-- r21. -/
  c : Byte
  /-- r22. -/
  count : Byte

structure State where
  /-- r18, r19, r23 and r25:r24. -/
  txCount : Byte
  txPhase : Byte
  waitCount : Byte
  r24 : Byte
  r25 : Byte
  recv : Receiver
  carry : Bool
  /-- The cycles that have passed. -/
  now : Nat
  port : Nat → Bool

abbrev LineM := StateM State

/-! ## Instructions -/

def tick (n : Nat) : LineM Unit := modify fun s => { s with now := s.now + n }

/-- SBI or CBI on the sending pin. -/
def setTx (l : Bool) : LineM Unit := modify fun s =>
  { s with now := s.now + 2, port := fun u => if s.now + 2 ≤ u then l else s.port u }

/-- CP of a register with r1, which is 0. -/
def cpZero : LineM Unit := modify fun s => { s with carry := false, now := s.now + 1 }

section Program

variable (clk : Clock) (line : Nat → Bool)

/-- `in r0, PIN`, of which only the receiving pin is looked at. -/
def inPin : LineM Bool := do
  let s ← get
  tick 1
  return line (s.now - 1)

/-- `1: dec r23; brne 1b`. -/
def spin : Nat → LineM Unit
  | 0 => return
  | n + 1 => do
    modify fun s => { s with waitCount := s.waitCount - 1, now := s.now + 1 }
    if (← get).waitCount ≠ 0 then
      tick 2
      spin n
    else tick 1

def delay (n : Byte) : LineM Unit := do
  modify fun s => { s with waitCount := n, now := s.now + 1 }
  spin 256

def waitTurns : Clock → Byte
  | .mhz20 => 34
  | .mhz16 => 27

/-- The NOPs of `wait`, where it does not sample and where it does. -/
def waitNops : Clock → Nat
  | .mhz20 => 6
  | .mhz16 => 7

def sampleNops : Clock → Nat
  | .mhz20 => 1
  | .mhz16 => 2

/-- `wait`. -/
def wait : LineM Unit := do
  delay (waitTurns clk)
  modify fun s => { s with carry := s.txPhase < s.recv.mode }  -- cp
  tick 1
  let s ← get
  if s.txPhase = s.recv.mode then
    tick 2
    let b ← inPin line
    tick 1  -- clc
    tick 2  -- sbrc, sec
    modify fun s => { s with
      recv := { s.recv with c := shiftIn s.recv.c b }, carry := s.recv.c.getLsbD 0 }
    tick 1
    modify fun s => { s with recv := { s.recv with count := s.recv.count - 1 } }
    tick 1
    tick (sampleNops clk)
  else
    tick 1
    tick (waitNops clk)
    tick 2
  tick 4

def bitTurns : Clock → Byte
  | .mhz20 => 168
  | .mhz16 => 134

def bitNops : Clock → Nat
  | .mhz20 => 2
  | .mhz16 => 0

/-- `x4wait`. -/
def x4wait : LineM Unit := do
  delay (bitTurns clk)
  tick (bitNops clk)
  tick 4

/-- From label 1 to label 4: the bit in C goes out. -/
def putBit : LineM Unit := do
  if (← get).carry then
    tick 2
    setTx true
    tick 2
  else
    tick 2
    setTx false
    tick 2

/-- Label 5 to `rcall wait`: look for a start bit, unless one has been
found. -/
def watch : LineM Unit := do
  cpZero
  let s ← get
  if s.recv.mode ≠ 0 then tick 4
  else
    tick 1
    if ← inPin line then tick 2
    else
      modify fun s => { s with recv := { s.recv with mode := s.txPhase } }
      tick 2

/-- `rcall wait` to `cpi r19, 5`. -/
def waitPhase : LineM Unit := do
  tick 3
  wait clk line
  modify fun s => { s with txPhase := s.txPhase + 1 }
  tick 1
  modify fun s => { s with carry := s.txPhase < 5 }
  tick 1

/-- The four phases of a bit, with `x` at the head of each. -/
def phases (x : LineM Unit) : Nat → LineM Unit
  | 0 => return
  | n + 1 => do
    x
    waitPhase clk line
    if (← get).txPhase ≠ 5 then
      tick 2
      phases x n
    else tick 1

def ldiPhase : LineM Unit := modify fun s => { s with txPhase := 1, now := s.now + 1 }

/-- From label 1 to label 6. -/
def sendBits : Nat → LineM Unit
  | 0 => return
  | n + 1 => do
    putBit
    ldiPhase
    phases clk line (watch line) 4
    modify fun s => { s with txCount := s.txCount - 1 }
    tick 1
    if (← get).txCount = 0 then tick 2
    else
      tick 1
      modify fun s => { s with
        r24 := shiftIn s.r24 s.carry, carry := s.r24.getLsbD 0 }
      tick 1
      tick 2
      sendBits n

/-- From label 7 to label 9: the stop bit, until the byte that comes in is
complete. -/
def finish : Nat → LineM Unit
  | 0 => return
  | n + 1 => do
    tick 1
    setTx true
    cpZero
    if (← get).recv.count = 0 then tick 2
    else
      tick 1
      ldiPhase
      phases clk line (tick 5) 4
      tick 4
      tick 2
      finish n

/-- From label 6 on. -/
def ending : LineM Unit := do
  cpZero
  if (← get).recv.mode ≠ 0 then
    tick 2
    finish clk line 10
    modify fun s => { s with r24 := s.recv.c, r25 := 0xff }
    tick 2
    tick 3
    x4wait clk
    tick 4
  else
    tick 1
    tick 2
    setTx true
    tick 3
    x4wait clk
    modify fun s => { s with r24 := 0, r25 := 0 }
    tick 2
    tick 4

def uartTx (c : Byte) : LineM Unit := do
  modify fun s => { s with r24 := c, txCount := 9, recv := { s.recv with mode := 0, count := 9 } }
  tick 3
  modify fun s => { s with carry := false }
  tick 1
  sendBits clk line 9
  ending clk line

/-- The loop of `uart_rx`. -/
def takeBits : Nat → LineM Unit
  | 0 => return
  | n + 1 => do
    let b ← inPin line
    tick 3
    modify fun s => { s with r24 := shiftIn s.r24 b, carry := s.r24.getLsbD 0 }
    tick 1
    tick 3
    x4wait clk
    modify fun s => { s with txCount := s.txCount - 1 }
    tick 1
    if (← get).txCount ≠ 0 then
      tick 2
      takeBits n
    else tick 1

def uartRx : LineM Unit := do
  tick 3
  x4wait clk
  modify fun s => { s with txCount := 8 }
  tick 1
  takeBits clk line 8
  tick 4

end Program

/-! ## Waiting -/

theorem spin_run : ∀ {n : Nat} {s : State}, s.waitCount ≠ 0 → s.waitCount.toNat ≤ n →
    spin n s = ((), { s with waitCount := 0, now := s.now + 3 * s.waitCount.toNat - 1 })
  | 0, s, h0, hn => by
      have : s.waitCount.toNat = 0 := by omega
      exact absurd (BitVec.eq_of_toNat_eq this) h0
  | n + 1, s, h0, hn => by
      have hpos : 0 < s.waitCount.toNat := by
        rcases Nat.eq_zero_or_pos s.waitCount.toNat with h | h
        · exact absurd (BitVec.eq_of_toNat_eq h) h0
        · exact h
      have hdec : (s.waitCount - 1).toNat = s.waitCount.toNat - 1 := by
        have := s.waitCount.isLt
        rw [BitVec.toNat_sub, show (1 : Byte).toNat = 1 from rfl]
        omega
      rw [spin, modify_bind_run, get_bind_run, ite_run]
      by_cases h1 : s.waitCount - 1 = 0
      · have hone : s.waitCount.toNat = 1 := by
          rw [h1] at hdec
          have : (0 : Byte).toNat = 0 := rfl
          omega
        rw [if_neg (not_not_intro h1), hone, h1]
        rfl
      · have hless : (s.waitCount - 1).toNat ≤ n := by omega
        rw [if_pos h1]
        refine (spin_run (s := { s with waitCount := s.waitCount - 1, now := s.now + 1 + 2 }) h1
          hless).trans ?_
        rw [hdec, show s.now + 1 + 2 + 3 * (s.waitCount.toNat - 1) - 1
          = s.now + 3 * s.waitCount.toNat - 1 by omega]

theorem delay_run {n : Byte} (hn : n ≠ 0) (s : State) :
    delay n s = ((), { s with waitCount := 0, now := s.now + 3 * n.toNat }) := by
  have hpos : 0 < n.toNat := by
    rcases Nat.eq_zero_or_pos n.toNat with h | h
    · exact absurd (BitVec.eq_of_toNat_eq h) hn
    · exact h
  have hrun := spin_run (n := 256) (s := { s with waitCount := n, now := s.now + 1 }) hn
    (Nat.le_of_lt n.isLt)
  rw [delay, modify_bind_run, hrun, show s.now + 1 + 3 * n.toNat - 1 = s.now + 3 * n.toNat by omega]

/-- The cycles of `wait`, with the RET. -/
def waitTime : Clock → Nat
  | .mhz20 => 116
  | .mhz16 => 96

/-- The cycle of the line that `wait` samples. -/
def sampleAt : Clock → Nat
  | .mhz20 => 104
  | .mhz16 => 83

/-- The cycles of `x4wait`, with the RET. -/
def bitWait : Clock → Nat
  | .mhz20 => 510
  | .mhz16 => 406

/-- A sample is taken. -/
def Receiver.sample (r : Receiver) (b : Bool) : Receiver := ⟨r.mode, shiftIn r.c b, r.count - 1⟩

section Runs

variable (clk : Clock) (line : Nat → Bool)

theorem x4wait_run (s : State) :
    x4wait clk s = ((), { s with waitCount := 0, now := s.now + bitWait clk }) := by
  cases clk <;> rw [x4wait, bind_of_run (delay_run (by decide) s)] <;> rfl

theorem wait_run (s : State) : ∃ k, wait clk line s = ((), { s with
    waitCount := 0, carry := k, now := s.now + waitTime clk
    recv := if s.txPhase = s.recv.mode then s.recv.sample (line (s.now + sampleAt clk))
      else s.recv }) := by
  have hturns : waitTurns clk ≠ 0 := by cases clk <;> decide
  rw [wait, bind_of_run (delay_run hturns s), modify_bind_run, bind_run]
  by_cases h : s.txPhase = s.recv.mode
  · refine ⟨s.recv.c.getLsbD 0, ?_⟩
    rw [get_bind_run, ite_run, if_pos h]
    refine (if_pos h).trans ?_
    cases clk <;> rfl
  · refine ⟨decide (s.txPhase < s.recv.mode), ?_⟩
    rw [get_bind_run, ite_run, if_neg h]
    refine (if_neg h).trans ?_
    cases clk <;> rfl

theorem waitPhase_run (s : State) : waitPhase clk line s = ((), { s with
    waitCount := 0, txPhase := s.txPhase + 1, carry := decide (s.txPhase + 1 < 5)
    now := s.now + 5 + waitTime clk
    recv := if s.txPhase = s.recv.mode then s.recv.sample (line (s.now + 3 + sampleAt clk))
      else s.recv }) := by
  obtain ⟨k, hrun⟩ := wait_run clk line { s with now := s.now + 3 }
  have htick : tick 3 s = ((), { s with now := s.now + 3 }) := rfl
  rw [waitPhase, bind_of_run htick, bind_of_run hrun, show s.now + 5 + waitTime clk
    = s.now + 3 + waitTime clk + 1 + 1 by omega]
  rfl

/-- The receiver once it has looked at the line. -/
def Receiver.watched (r : Receiver) (phase : Byte) (b : Bool) : Receiver :=
  if r.mode ≠ 0 ∨ b = true then r else { r with mode := phase }

/-- What stands at the head of a phase takes five cycles and changes the
receiver by `f`. -/
def Heads (x : LineM Unit) (f : Byte → Nat → Receiver → Receiver) : Prop :=
  ∀ s, ∃ k, x s = ((), { s with
    carry := k, now := s.now + 5, recv := f s.txPhase s.now s.recv })

/-- The look at the line in the phase that begins at `t`. -/
def look (i : Byte) (t : Nat) (r : Receiver) : Receiver := r.watched i (line (t + 1))

theorem watch_heads : Heads (watch line) (look line) := by
  intro s
  refine ⟨false, ?_⟩
  have hcp : cpZero s = ((), { s with carry := false, now := s.now + 1 }) := rfl
  show watch line s = ((), { s with
    carry := false, now := s.now + 5, recv := s.recv.watched s.txPhase (line (s.now + 1)) })
  rw [watch, bind_of_run hcp, get_bind_run, ite_run]
  by_cases hmode : s.recv.mode ≠ 0
  · rw [Receiver.watched, if_pos (Or.inl hmode)]
    exact if_pos hmode
  · have htick : tick 1 { s with carry := false, now := s.now + 1 }
        = ((), { s with carry := false, now := s.now + 1 + 1 }) := rfl
    have hin : inPin line { s with carry := false, now := s.now + 1 + 1 }
        = (line (s.now + 1), { s with carry := false, now := s.now + 1 + 1 + 1 }) := rfl
    refine (if_neg hmode).trans ?_
    rw [bind_of_run htick, bind_of_run hin, ite_run]
    cases line (s.now + 1) with
    | true =>
        rw [Receiver.watched, if_pos (Or.inr rfl)]
        rfl
    | false =>
        have hmiss : ¬(s.recv.mode ≠ 0 ∨ false = true) := by simpa using hmode
        have hw : s.recv.watched s.txPhase false = { s.recv with mode := s.txPhase } :=
          if_neg hmiss
        rw [hw]
        rfl

theorem tick_heads : Heads (tick 5) fun _ _ r => r :=
  fun s => ⟨s.carry, rfl⟩

/-- What a phase makes of the receiver. -/
def Receiver.phase (f : Byte → Nat → Receiver → Receiver) (i : Byte) (t : Nat) (r : Receiver) :
    Receiver :=
  if i = (f i t r).mode then (f i t r).sample (line (t + 8 + sampleAt clk)) else f i t r

/-- From the head of a phase to the head of the next. -/
def phaseTime : Nat := 12 + waitTime clk

variable {f : Byte → Nat → Receiver → Receiver} {x : LineM Unit}

theorem phase_run (hx : Heads x f) (s : State) :
    (do x; waitPhase clk line : LineM Unit) s = ((), { s with
      waitCount := 0, txPhase := s.txPhase + 1, carry := decide (s.txPhase + 1 < 5)
      now := s.now + 10 + waitTime clk
      recv := s.recv.phase clk line f s.txPhase s.now }) := by
  obtain ⟨k, hhead⟩ := hx s
  rw [bind_of_run hhead, waitPhase_run clk line, show s.now + 10 + waitTime clk
    = s.now + 5 + 5 + waitTime clk by omega]
  rfl

theorem phases_more (hx : Heads x f) (n : Nat) {s : State} (h : s.txPhase + 1 ≠ 5) :
    phases clk line x (n + 1) s = phases clk line x n { s with
      waitCount := 0, txPhase := s.txPhase + 1, carry := decide (s.txPhase + 1 < 5)
      now := s.now + phaseTime clk, recv := s.recv.phase clk line f s.txPhase s.now } := by
  have hphase := phase_run clk line hx s
  have hnow : s.now + phaseTime clk = s.now + 10 + waitTime clk + 2 := by
    rw [phaseTime]
    omega
  rw [phases, ← bind_assoc, bind_of_run hphase, get_bind_run, ite_run, hnow]
  exact if_pos h

theorem phases_last (hx : Heads x f) (n : Nat) {s : State} (h : s.txPhase + 1 = 5) :
    phases clk line x (n + 1) s = ((), { s with
      waitCount := 0, txPhase := 5, carry := false
      now := s.now + phaseTime clk - 1, recv := s.recv.phase clk line f s.txPhase s.now }) := by
  have hphase := phase_run clk line hx s
  have hnow : s.now + phaseTime clk - 1 = s.now + 10 + waitTime clk + 1 := by
    rw [phaseTime]
    omega
  rw [phases, ← bind_assoc, bind_of_run hphase, get_bind_run, ite_run, hnow, h]
  exact if_neg (not_not_intro rfl)

/-- What a bit, from its first phase on, makes of the receiver. -/
def Receiver.bit (f : Byte → Nat → Receiver → Receiver) (t : Nat) (r : Receiver) : Receiver :=
  (((r.phase clk line f 1 t).phase clk line f 2 (t + phaseTime clk)).phase clk line f 3
    (t + 2 * phaseTime clk)).phase clk line f 4 (t + 3 * phaseTime clk)

theorem phases_run (hx : Heads x f) {s : State} (h : s.txPhase = 1) :
    phases clk line x 4 s = ((), { s with
      waitCount := 0, txPhase := 5, carry := false
      now := s.now + 4 * phaseTime clk - 1, recv := s.recv.bit clk line f s.now }) := by
  obtain ⟨txCount, txPhase, waitCount, r24, r25, recv, carry, now, port⟩ := s
  obtain rfl : txPhase = 1 := h
  rw [phases_more clk line hx 3 (by decide : (1 : Byte) + 1 ≠ 5)]
  rw [phases_more clk line hx 2 (by decide : (1 : Byte) + 1 + 1 ≠ 5)]
  rw [phases_more clk line hx 1 (by decide : (1 : Byte) + 1 + 1 + 1 ≠ 5)]
  rw [phases_last clk line hx 0 (by decide : (1 : Byte) + 1 + 1 + 1 + 1 = 5)]
  have htwo : now + phaseTime clk + phaseTime clk = now + 2 * phaseTime clk := by omega
  have hthree : now + 2 * phaseTime clk + phaseTime clk = now + 3 * phaseTime clk := by omega
  have hfour : now + 3 * phaseTime clk + phaseTime clk = now + 4 * phaseTime clk := by omega
  simp only [htwo, hthree, hfour]
  rfl

/-! ## The frame that goes out -/

/-- From one bit to the next. -/
def bitTime : Nat := 4 * phaseTime clk + 11

/-- What so many bits make of the receiver, `t` being the head of the first
phase. -/
def Receiver.bits (f : Byte → Nat → Receiver → Receiver) : Nat → Nat → Receiver → Receiver
  | 0, _, r => r
  | n + 1, t, r => Receiver.bits f n (t + bitTime clk) (r.bit clk line f t)

/-- The bit in C, and those of r24 behind it. -/
def outgoing (carry : Bool) (r24 : Byte) : Nat → Bool
  | 0 => carry
  | k + 1 => r24.getLsbD k

theorem Receiver.bits_succ (f : Byte → Nat → Receiver → Receiver) (n t : Nat) (r : Receiver) :
    r.bits clk line f (n + 1) t = (r.bit clk line f t).bits clk line f n (t + bitTime clk) :=
  rfl

theorem outgoing_next (carry : Bool) (r24 : Byte) :
    (fun k => outgoing carry r24 (k + 1)) = outgoing (r24.getLsbD 0) (shiftIn r24 false) := by
  funext k
  cases k with
  | zero => rfl
  | succ k =>
      rw [outgoing, outgoing, shiftIn_getLsbD]
      by_cases hk : k = 7
      · rw [if_pos hk, hk, r24.getLsbD_of_ge 8 (Nat.le_refl 8)]
      · rw [if_neg hk]

theorem outgoing_frame (c : Byte) {k : Nat} (hk : k < 9) :
    outgoing false c k = frameBit c k := by
  cases k with
  | zero => rfl
  | succ k => rw [outgoing, frameBit_data (by omega)]

theorem putBit_run (s : State) : putBit s = ((), { s with
    now := s.now + 6, port := fun u => if s.now + 4 ≤ u then s.carry else s.port u }) := by
  obtain ⟨txCount, txPhase, waitCount, r24, r25, recv, carry, now, port⟩ := s
  cases carry <;> rfl

/-- The state at the DEC of r18. -/
def State.turned (s : State) : State := { s with
  txPhase := 5, waitCount := 0, carry := false, now := s.now + 7 + 4 * phaseTime clk - 1
  recv := s.recv.bit clk line (look line) (s.now + 7)
  port := fun u => if s.now + 4 ≤ u then s.carry else s.port u }

/-- From label 1 to the DEC of r18. -/
theorem turn_run (s : State) :
    (do putBit; ldiPhase; phases clk line (watch line) 4 : LineM Unit) s
      = ((), s.turned clk line) := by
  have hput := putBit_run s
  have hldi : ldiPhase { s with
      now := s.now + 6, port := fun u => if s.now + 4 ≤ u then s.carry else s.port u }
      = ((), { s with
        txPhase := 1, now := s.now + 7
        port := fun u => if s.now + 4 ≤ u then s.carry else s.port u }) := rfl
  have hphases := phases_run clk line (watch_heads line) (s := { s with
    txPhase := 1, now := s.now + 7
    port := fun u => if s.now + 4 ≤ u then s.carry else s.port u }) rfl
  rw [bind_of_run hput, bind_of_run hldi, hphases]
  rfl

theorem decCount_last {s : State} (h : s.txCount - 1 = 0) (rest : LineM Unit) :
    (do
      modify fun s => { s with txCount := s.txCount - 1 }
      tick 1
      if (← get).txCount = 0 then tick 2 else rest : LineM Unit) s
      = ((), { s with txCount := s.txCount - 1, now := s.now + 1 + 2 }) := by
  rw [modify_bind_run, bind_run, get_bind_run, ite_run]
  exact if_pos h

theorem decCount_more {s : State} (h : s.txCount - 1 ≠ 0) (rest : LineM Unit) :
    (do
      modify fun s => { s with txCount := s.txCount - 1 }
      tick 1
      if (← get).txCount = 0 then tick 2 else rest : LineM Unit) s
      = rest { s with txCount := s.txCount - 1, now := s.now + 1 } := by
  rw [modify_bind_run, bind_run, get_bind_run, ite_run]
  exact if_neg h

theorem rotate_run (s : State) (rest : LineM Unit) :
    (do
      tick 1
      modify fun s => { s with r24 := shiftIn s.r24 s.carry, carry := s.r24.getLsbD 0 }
      tick 1
      tick 2
      rest : LineM Unit) s
      = rest { s with
        r24 := shiftIn s.r24 s.carry, carry := s.r24.getLsbD 0, now := s.now + 1 + 1 + 2 } := rfl

/-- The state a bit later, if there is another to send. -/
def State.shifted (s : State) : State := { s with
  txCount := s.txCount - 1, txPhase := 5, waitCount := 0, r24 := shiftIn s.r24 false
  carry := s.r24.getLsbD 0, now := s.now + bitTime clk
  recv := s.recv.bit clk line (look line) (s.now + 7)
  port := fun u => if s.now + 4 ≤ u then s.carry else s.port u }

/-- The state after the last bit. -/
def State.ended (s : State) : State := { s with
  txCount := 0, txPhase := 5, waitCount := 0, carry := false, now := s.now + bitTime clk - 2
  recv := s.recv.bit clk line (look line) (s.now + 7)
  port := fun u => if s.now + 4 ≤ u then s.carry else s.port u }

theorem sendBits_last (n : Nat) {s : State} (h : s.txCount - 1 = 0) :
    sendBits clk line (n + 1) s = ((), s.ended clk line) := by
  have hturn := turn_run clk line s
  have hnow : s.now + bitTime clk - 2 = s.now + 7 + 4 * phaseTime clk - 1 + 1 + 2 := by
    rw [bitTime]
    omega
  rw [sendBits, ← bind_assoc, ← bind_assoc, bind_assoc putBit, bind_of_run hturn,
    decCount_last (s := s.turned clk line) h]
  simp only [State.turned, State.ended, h, hnow]

theorem sendBits_more (n : Nat) {s : State} (h : s.txCount - 1 ≠ 0) :
    sendBits clk line (n + 1) s = sendBits clk line n (s.shifted clk line) := by
  have hturn := turn_run clk line s
  have hnow : s.now + bitTime clk = s.now + 7 + 4 * phaseTime clk - 1 + 1 + 1 + 1 + 2 := by
    rw [bitTime]
    omega
  rw [sendBits, ← bind_assoc, ← bind_assoc, bind_assoc putBit, bind_of_run hturn,
    decCount_more (s := s.turned clk line) h, rotate_run]
  simp only [State.turned, State.shifted, hnow]

theorem sendBits_run : ∀ (n : Nat) (s : State), s.txCount.toNat = n + 1 → ∃ v,
    sendBits clk line (n + 1) s = ((), { s with
      txCount := 0, txPhase := 5, waitCount := 0, r24 := v, carry := false
      now := s.now + (n + 1) * bitTime clk - 2
      recv := s.recv.bits clk line (look line) (n + 1) (s.now + 7)
      port := sent (bitTime clk) (n + 1) (outgoing s.carry s.r24) (s.now + 4) s.port }) := by
  intro n
  induction n with
  | zero =>
      intro s h
      have hone : s.txCount = 1 := BitVec.eq_of_toNat_eq h
      have hlast : s.txCount - 1 = 0 := by rw [hone]; rfl
      refine ⟨s.r24, (sendBits_last clk line 0 hlast).trans ?_⟩
      rw [State.ended, Nat.zero_add, Nat.one_mul]
      rfl
  | succ n ih =>
      intro s h
      have hdec : (s.txCount - 1).toNat = n + 1 := by
        have := s.txCount.isLt
        rw [BitVec.toNat_sub, show (1 : Byte).toNat = 1 from rfl]
        omega
      have hne : s.txCount - 1 ≠ 0 := by
        intro h0
        rw [h0] at hdec
        exact absurd hdec (by simp)
      have hnow : s.now + (n + 1 + 1) * bitTime clk - 2
          = s.now + bitTime clk + (n + 1) * bitTime clk - 2 := by
        rw [Nat.succ_mul]
        omega
      obtain ⟨v, hrest⟩ := ih (s.shifted clk line) hdec
      refine ⟨v, (sendBits_more clk line (n + 1) hne).trans (hrest.trans ?_)⟩
      have h7 : s.now + 7 + bitTime clk = s.now + bitTime clk + 7 := by omega
      have h4 : s.now + 4 + bitTime clk = s.now + bitTime clk + 4 := by omega
      rw [Receiver.bits_succ clk line _ (n + 1), sent_succ (bitTime clk) (n + 1), outgoing_next, h7,
        h4, hnow]
      simp only [State.shifted, outgoing]

/-! ## The receiver, a phase and a bit at a time -/

/-- A start bit has not been found. -/
structure Waiting (r : Receiver) : Prop where
  mode : r.mode = 0
  count : r.count = 9

/-- A start bit was found in phase `i`, which began at `s`, and `n` samples
have been taken since. -/
structure Found (i : Byte) (s n : Nat) (r : Receiver) : Prop where
  mode : r.mode = i
  phase : i = 1 ∨ i = 2 ∨ i = 3 ∨ i = 4
  count : r.count.toNat + n = 9
  holds : Holds (fun j => line (s + j * bitTime clk + 8 + sampleAt clk)) n r.c

/-- A receiver that has found its start bit is left alone. -/
def Leaves (f : Byte → Nat → Receiver → Receiver) : Prop :=
  ∀ (i : Byte) (t : Nat) (r : Receiver), r.mode ≠ 0 → f i t r = r

theorem look_leaves : Leaves (look line) :=
  fun _ _ _ h => if_pos (Or.inl h)

theorem id_leaves : Leaves fun _ _ r => r :=
  fun _ _ _ _ => rfl

section Bits

variable {clk line} {r : Receiver} {i : Byte} {s n t : Nat}

theorem Found.mode_ne (h : Found clk line i s n r) : r.mode ≠ 0 := by
  rw [h.mode]
  rcases h.phase with rfl | rfl | rfl | rfl <;> decide

theorem Found.sample (h : Found clk line i s n r) (hn : n < 9)
    (ht : t = s + n * bitTime clk) :
    Found clk line i s (n + 1) (r.sample (line (t + 8 + sampleAt clk))) := by
  obtain ⟨hmode, hphase, hcount, hholds⟩ := h
  refine ⟨hmode, hphase, ?_, ?_⟩
  · have := r.count.isLt
    show (r.count - 1).toNat + (n + 1) = 9
    rw [BitVec.toNat_sub, show (1 : Byte).toNat = 1 from rfl]
    omega
  · rw [ht]
    exact hholds.step

/-- Another phase than that of the samples. -/
theorem Found.phase_other (h : Found clk line i s n r) (hf : Leaves f) {j : Byte} (hj : j ≠ i) :
    r.phase clk line f j t = r := by
  rw [Receiver.phase, hf j t r h.mode_ne, h.mode, if_neg hj]

theorem Found.phase_own (h : Found clk line i s n r) (hf : Leaves f) :
    r.phase clk line f i t = r.sample (line (t + 8 + sampleAt clk)) := by
  rw [Receiver.phase, hf i t r h.mode_ne, h.mode, if_pos rfl]

/-- The next sample comes a bit after the last. -/
theorem Found.bit (h : Found clk line i s n r) (hf : Leaves f) (hn : n < 9)
    (ht : t + (i.toNat - 1) * phaseTime clk = s + n * bitTime clk) :
    Found clk line i s (n + 1) (r.bit clk line f t) := by
  rcases h.phase with rfl | rfl | rfl | rfl
  · have hown := h.sample hn ((Nat.add_zero t).symm.trans (by simpa using ht))
    rw [Receiver.bit, h.phase_own hf, hown.phase_other hf (by decide),
      hown.phase_other hf (by decide), hown.phase_other hf (by decide)]
    exact hown
  · have hown := h.sample (t := t + phaseTime clk) hn (by simpa using ht)
    rw [Receiver.bit, h.phase_other hf (by decide), h.phase_own hf,
      hown.phase_other hf (by decide), hown.phase_other hf (by decide)]
    exact hown
  · have hown := h.sample (t := t + 2 * phaseTime clk) hn (by simpa using ht)
    rw [Receiver.bit, h.phase_other hf (by decide), h.phase_other hf (by decide), h.phase_own hf,
      hown.phase_other hf (by decide)]
    exact hown
  · have hown := h.sample (t := t + 3 * phaseTime clk) hn (by simpa using ht)
    rw [Receiver.bit, h.phase_other hf (by decide), h.phase_other hf (by decide),
      h.phase_other hf (by decide), h.phase_own hf]
    exact hown

theorem Waiting.phase_high (h : Waiting r) (hline : line (t + 1) = true) (hi : i ≠ 0) :
    r.phase clk line (look line) i t = r := by
  have hlook : look line i t r = r := if_pos (Or.inr hline)
  rw [Receiver.phase, hlook, h.mode, if_neg hi]

theorem Waiting.phase_low (h : Waiting r) (hline : line (t + 1) = false)
    (hi : i = 1 ∨ i = 2 ∨ i = 3 ∨ i = 4) :
    Found clk line i t 1 (r.phase clk line (look line) i t) := by
  have hlook : look line i t r = { r with mode := i } := by
    rw [look, Receiver.watched, hline, if_neg]
    rw [h.mode]
    simp
  have hfound : Found clk line i t 0 { r with mode := i } := by
    refine ⟨rfl, hi, ?_, .zero _ _⟩
    show r.count.toNat + 0 = 9
    rw [h.count]
    rfl
  have hown := hfound.sample (t := t) (by decide) (by rw [Nat.zero_mul, Nat.add_zero])
  rw [Receiver.phase, hlook, if_pos rfl]
  exact hown

/-- The start bit is found in the first phase whose look finds the line
low. -/
theorem Waiting.bit (clk : Clock) (line : Nat → Bool) (h : Waiting r) (t : Nat) :
    (r.bit clk line (look line) t = r ∧ ∀ q < 4, line (t + q * phaseTime clk + 1) = true)
      ∨ ∃ q < 4, line (t + q * phaseTime clk + 1) = false
        ∧ (∀ p < q, line (t + p * phaseTime clk + 1) = true)
        ∧ Found clk line (BitVec.ofNat 8 (q + 1)) (t + q * phaseTime clk) 1
          (r.bit clk line (look line) t) := by
  have hf := look_leaves line
  have h0 : t + 0 * phaseTime clk = t := by rw [Nat.zero_mul, Nat.add_zero]
  have h1 : t + 1 * phaseTime clk = t + phaseTime clk := by rw [Nat.one_mul]
  have hall {P : Nat → Prop} (h0 : P 0) (h1 : P 1) (h2 : P 2) (h3 : P 3) : ∀ q < 4, P q := by
    intro q hq
    interval_cases q <;> assumption
  rw [Receiver.bit]
  cases hq0 : line (t + 1) with
  | false =>
      have hfound : Found clk line 1 t 1 _ := h.phase_low hq0 (by decide)
      refine Or.inr ⟨0, by decide, by rwa [h0], nofun, ?_⟩
      rw [hfound.phase_other hf (by decide), hfound.phase_other hf (by decide),
        hfound.phase_other hf (by decide), h0]
      exact hfound
  | true =>
      rw [h.phase_high (i := 1) hq0 (by decide)]
      cases hq1 : line (t + phaseTime clk + 1) with
      | false =>
          have hfound : Found clk line 2 (t + phaseTime clk) 1 _ := h.phase_low hq1 (by decide)
          refine Or.inr ⟨1, by decide, by rwa [h1], ?_, ?_⟩
          · intro p hp
            interval_cases p
            rwa [h0]
          · rw [hfound.phase_other hf (by decide), hfound.phase_other hf (by decide), h1]
            exact hfound
      | true =>
          rw [h.phase_high (i := 2) hq1 (by decide)]
          cases hq2 : line (t + 2 * phaseTime clk + 1) with
          | false =>
              have hfound : Found clk line 3 (t + 2 * phaseTime clk) 1 _ :=
                h.phase_low hq2 (by decide)
              refine Or.inr ⟨2, by decide, hq2, ?_, ?_⟩
              · intro p hp
                interval_cases p
                · rwa [h0]
                · rwa [h1]
              · rw [hfound.phase_other hf (by decide)]
                exact hfound
          | true =>
              rw [h.phase_high (i := 3) hq2 (by decide)]
              cases hq3 : line (t + 3 * phaseTime clk + 1) with
              | false =>
                  refine Or.inr ⟨3, by decide, hq3, ?_, h.phase_low (i := 4) hq3 (by decide)⟩
                  intro p hp
                  interval_cases p
                  · rwa [h0]
                  · rwa [h1]
                  · exact hq2
              | true =>
                  rw [h.phase_high (i := 4) hq3 (by decide)]
                  exact Or.inl ⟨rfl, hall (by rwa [h0]) (by rwa [h1]) hq2 hq3⟩

theorem Found.bits (hf : Leaves f) : ∀ {m n t : Nat} {r : Receiver}, Found clk line i s n r →
    n + m ≤ 9 → t + (i.toNat - 1) * phaseTime clk = s + n * bitTime clk →
    Found clk line i s (n + m) (r.bits clk line f m t)
  | 0, _, _, _, h, _, _ => h
  | m + 1, n, t, r, h, hn, ht => by
      have hnext := h.bit hf (by omega) ht
      have hlater : t + bitTime clk + (i.toNat - 1) * phaseTime clk
          = s + (n + 1) * bitTime clk := by
        rw [Nat.succ_mul]
        omega
      rw [Receiver.bits_succ, ← Nat.succ_add_eq_add_succ]
      exact hnext.bits hf (by omega) hlater

/-- A start bit was found less than `n` bits before `t`. -/
def Caught (clk : Clock) (line : Nat → Bool) (ok : Nat → Prop) (n t : Nat) (r : Receiver) : Prop :=
  ∃ i s k, 0 < k ∧ k ≤ n ∧ ok s ∧ Found clk line i s k r
    ∧ t + (i.toNat - 1) * phaseTime clk = s + k * bitTime clk

theorem caught_first {ok : Nat → Prop} {q : Nat} (hq : q < 4) (hok : ok (t + q * phaseTime clk))
    (h : Found clk line (BitVec.ofNat 8 (q + 1)) (t + q * phaseTime clk) 1 r) :
    Caught clk line ok 1 (t + bitTime clk) r := by
  have hphase : (BitVec.ofNat 8 (q + 1)).toNat - 1 = q := by
    rw [BitVec.toNat_ofNat]
    omega
  refine ⟨_, _, 1, Nat.one_pos, Nat.le_refl 1, hok, h, ?_⟩
  rw [hphase]
  omega

theorem Caught.bit {ok : Nat → Prop} (h : Caught clk line ok n t r) (hf : Leaves f) (hn : n < 9) :
    Caught clk line ok (n + 1) (t + bitTime clk) (r.bit clk line f t) := by
  obtain ⟨i, s, k, hk, hkn, hok, hfound, ht⟩ := h
  refine ⟨i, s, k + 1, by omega, by omega, hok, hfound.bit hf (by omega) ht, ?_⟩
  rw [Nat.succ_mul]
  omega

theorem Receiver.bits_last (f : Byte → Nat → Receiver → Receiver) : ∀ (m t : Nat) (r : Receiver),
    r.bits clk line f (m + 1) t
      = (r.bits clk line f m t).bit clk line f (t + m * bitTime clk)
  | 0, t, r => by rw [Nat.zero_mul, Nat.add_zero]; rfl
  | m + 1, t, r => by
      have hnow : t + (m + 1) * bitTime clk = t + bitTime clk + m * bitTime clk := by
        rw [Nat.succ_mul]
        omega
      rw [Receiver.bits_succ, Receiver.bits_last f m, Receiver.bits_succ, hnow]

/-- The receiver over any run of bits, with what is known of the line:
while the line stays high the next bit begins `Early`, and where a start
bit is found is `ok`. -/
theorem scan (Early ok : Nat → Prop)
    (hhigh : ∀ t, Early t → (∀ q < 4, line (t + q * phaseTime clk + 1) = true) →
      Early (t + bitTime clk))
    (hlow : ∀ t q, Early t → q < 4 → line (t + q * phaseTime clk + 1) = false →
      (∀ p < q, line (t + p * phaseTime clk + 1) = true) → ok (t + q * phaseTime clk))
    (hr : Waiting r) (ht : Early t) : ∀ m ≤ 9,
      (Waiting (r.bits clk line (look line) m t) ∧ Early (t + m * bitTime clk))
        ∨ Caught clk line ok m (t + m * bitTime clk) (r.bits clk line (look line) m t) := by
  intro m
  induction m with
  | zero =>
      intro _
      rw [Nat.zero_mul, Nat.add_zero]
      exact Or.inl ⟨hr, ht⟩
  | succ m ih =>
      intro hm
      have hnow : t + (m + 1) * bitTime clk = t + m * bitTime clk + bitTime clk := by
        rw [Nat.succ_mul]
        omega
      rw [Receiver.bits_last, hnow]
      rcases ih (by omega) with ⟨hwaiting, hearly⟩ | hcaught
      · rcases hwaiting.bit clk line (t + m * bitTime clk) with
          ⟨hsame, hq⟩ | ⟨q, hq, hline, hbefore, hfound⟩
        · rw [hsame]
          exact Or.inl ⟨hwaiting, hhigh _ hearly hq⟩
        · obtain ⟨i, s, k, hk, hkn, hok, hrest⟩ :=
            caught_first hq (hlow _ q hearly hq hline hbefore) hfound
          exact Or.inr ⟨i, s, k, hk, by omega, hok, hrest⟩
      · exact Or.inr (hcaught.bit (look_leaves line) (by omega))

end Bits

/-! ## The stop bit and the end -/

/-- The line high from cycle `e` on. -/
def highFrom (e : Nat) (port : Nat → Bool) : Nat → Bool := fun u => if e ≤ u then true else port u

theorem highFrom_later (e d : Nat) (port : Nat → Bool) :
    highFrom (e + d) (highFrom e port) = highFrom e port := by
  funext u
  by_cases h : e + d ≤ u
  · rw [highFrom, if_pos h, highFrom, if_pos (by omega)]
  · rw [highFrom, if_neg h]

/-- From label 7 back to it. -/
def State.awaited (s : State) : State := { s with
  txPhase := 5, waitCount := 0, carry := false, now := s.now + 6 + 4 * phaseTime clk - 1 + 4 + 2
  recv := s.recv.bit clk line (fun _ _ r => r) (s.now + 6), port := highFrom (s.now + 3) s.port }

theorem finish_more (n : Nat) {s : State} (h : s.recv.count ≠ 0) :
    finish clk line (n + 1) s = finish clk line n (s.awaited clk line) := by
  have hphases := phases_run clk line tick_heads (s := { s with
    txPhase := 1, carry := false, now := s.now + 6, port := highFrom (s.now + 3) s.port }) rfl
  have htick : tick 1 s = ((), { s with now := s.now + 1 }) := rfl
  have hset : setTx true { s with now := s.now + 1 }
      = ((), { s with now := s.now + 1 + 2, port := highFrom (s.now + 3) s.port }) := rfl
  rw [finish, bind_of_run htick, bind_of_run hset, bind_run cpZero, get_bind_run, ite_run]
  refine (if_neg h).trans ?_
  have hldi : ldiPhase { s with
      carry := false, now := s.now + 1 + 2 + 1 + 1, port := highFrom (s.now + 3) s.port }
      = ((), { s with
        txPhase := 1, carry := false, now := s.now + 6,
        port := highFrom (s.now + 3) s.port }) := rfl
  have hlast : tick 1 { s with
      carry := false, now := s.now + 1 + 2 + 1, port := highFrom (s.now + 3) s.port }
      = ((), { s with
        carry := false, now := s.now + 1 + 2 + 1 + 1, port := highFrom (s.now + 3) s.port }) := rfl
  refine (bind_of_run hlast _).trans ((bind_of_run hldi _).trans ?_)
  rw [bind_of_run hphases]
  rfl

theorem finish_done (n : Nat) {s : State} (h : s.recv.count = 0) :
    finish clk line (n + 1) s
      = ((), { s with carry := false, now := s.now + 6, port := highFrom (s.now + 3) s.port }) := by
  have htick : tick 1 s = ((), { s with now := s.now + 1 }) := rfl
  have hset : setTx true { s with now := s.now + 1 }
      = ((), { s with now := s.now + 1 + 2, port := highFrom (s.now + 3) s.port }) := rfl
  rw [finish, bind_of_run htick, bind_of_run hset, bind_run cpZero, get_bind_run, ite_run]
  exact if_pos h

theorem finish_run {i : Byte} {b m fuel k : Nat} {s : State} (h : Found clk line i b k s.recv)
    (hk : k + m = 9) (hfuel : m < fuel)
    (ht : s.now + 6 + (i.toNat - 1) * phaseTime clk = b + k * bitTime clk) :
    ∃ s', finish clk line fuel s = ((), s') ∧ s'.port = highFrom (s.now + 3) s.port
      ∧ s'.now = s.now + m * bitTime clk + 6 ∧ Found clk line i b 9 s'.recv := by
  induction m generalizing fuel k s with
  | zero =>
      rcases fuel with _ | fuel
      · exact absurd hfuel (Nat.not_lt_zero _)
      have hcount : s.recv.count = 0 := by
        have := h.count
        exact BitVec.eq_of_toNat_eq (show _ = 0 by omega)
      obtain rfl : k = 9 := by omega
      exact ⟨_, finish_done clk line fuel hcount, rfl, by rw [Nat.zero_mul], h⟩
  | succ m ih =>
      rcases fuel with _ | fuel
      · exact absurd hfuel (Nat.not_lt_zero _)
      have hcount : s.recv.count ≠ 0 := by
        intro h0
        have hsum := h.count
        rw [h0] at hsum
        have : (0 : Byte).toNat = 0 := rfl
        omega
      have hnow : (s.awaited clk line).now = s.now + bitTime clk := by
        simp only [State.awaited, bitTime]
        omega
      have hrecv : (s.awaited clk line).recv
          = s.recv.bit clk line (fun _ _ r => r) (s.now + 6) := by
        rw [State.awaited]
      have hnext : Found clk line i b (k + 1) (s.awaited clk line).recv := by
        rw [hrecv]
        exact h.bit id_leaves (by omega) ht
      have hlater : (s.awaited clk line).now + 6 + (i.toNat - 1) * phaseTime clk
          = b + (k + 1) * bitTime clk := by
        rw [hnow, Nat.succ_mul]
        omega
      have hless : m < fuel := by omega
      obtain ⟨s', hrun, hport, hend, hfound⟩ := ih hnext (by omega) hless hlater
      refine ⟨s', (finish_more clk line fuel hcount).trans hrun, ?_, ?_, hfound⟩
      · rw [hport, hnow, show s.now + bitTime clk + 3 = s.now + 3 + bitTime clk by omega]
        exact highFrom_later ..
      · rw [hend, hnow, Nat.succ_mul]
        omega

/-- The line of a byte sent from cycle `e` on. -/
def frameOut (c : Byte) (e : Nat) (port : Nat → Bool) : Nat → Bool :=
  highFrom (e + 9 * bitTime clk) (sent (bitTime clk) 9 (outgoing false c) e port)

/-- The receiver at the end of the last bit of data. -/
def heard (s : State) : Receiver :=
  Receiver.bits clk line (look line) 9 (s.now + 11) ⟨0, s.recv.c, 9⟩

/-- Up to label 6. -/
theorem sent_run (c : Byte) (s : State) : ∃ s', uartTx clk line c s = ending clk line s'
    ∧ s'.now = s.now + 4 + 9 * bitTime clk - 2 ∧ s'.recv = heard clk line s
    ∧ s'.port = sent (bitTime clk) 9 (outgoing false c) (s.now + 8) s.port := by
  obtain ⟨v, hrun⟩ := sendBits_run clk line 8 { s with
    r24 := c, txCount := 9, recv := ⟨0, s.recv.c, 9⟩, carry := false, now := s.now + 4 } rfl
  have hstart : uartTx clk line c s =
      (do sendBits clk line 9; ending clk line : LineM Unit) { s with
    r24 := c, txCount := 9, recv := ⟨0, s.recv.c, 9⟩, carry := false, now := s.now + 4 } := by
    rw [uartTx, modify_bind_run, bind_run (tick 3), modify_bind_run, bind_run (tick 1)]
    rfl
  have h11 : s.now + 4 + 7 = s.now + 11 := by omega
  have h8 : s.now + 4 + 4 = s.now + 8 := by omega
  rw [hstart, bind_of_run hrun]
  refine ⟨_, rfl, ?_, ?_, ?_⟩
  · simp only [Nat.reduceAdd]
  · simp only [heard, h11, Nat.reduceAdd]
  · simp only [h8, Nat.reduceAdd]

/-- Nothing has come in. -/
theorem ending_alone {s : State} (h : s.recv.mode = 0) : ∃ s', ending clk line s = ((), s')
    ∧ s'.r24 = 0 ∧ s'.r25 = 0 ∧ s'.port = highFrom (s.now + 6) s.port
    ∧ s'.now = s.now + 15 + bitWait clk := by
  have hwait := x4wait_run clk { s with
    carry := false, now := s.now + 1 + 1 + 2 + 2 + 3, port := highFrom (s.now + 6) s.port }
  have hstart : ending clk line s = (do
      x4wait clk
      modify fun s => { s with r24 := 0, r25 := 0 }
      tick 2
      tick 4 : LineM Unit) { s with
        carry := false, now := s.now + 1 + 1 + 2 + 2 + 3,
        port := highFrom (s.now + 6) s.port } := by
    rw [ending, bind_run cpZero, get_bind_run, ite_run]
    exact if_neg (not_not_intro h)
  rw [hstart, bind_of_run hwait]
  refine ⟨_, rfl, rfl, rfl, rfl, ?_⟩
  show s.now + 1 + 1 + 2 + 2 + 3 + bitWait clk + 2 + 4 = _
  omega

/-- A start bit has been found. -/
theorem ending_caught {s : State} {i : Byte} {b k : Nat} (h : Found clk line i b k s.recv)
    (hk : 0 < k) (hk9 : k ≤ 9)
    (ht : s.now + 9 + (i.toNat - 1) * phaseTime clk = b + k * bitTime clk) :
    ∃ s', ending clk line s = ((), s') ∧ s'.r24 = s'.recv.c ∧ s'.r25 = 0xff
      ∧ s'.port = highFrom (s.now + 6) s.port ∧ Found clk line i b 9 s'.recv
      ∧ s'.now = s.now + (9 - k) * bitTime clk + 18 + bitWait clk := by
  have hfuel : 9 - k < 10 := by omega
  have hnow : s.now + 1 + 2 + 6 + (i.toNat - 1) * phaseTime clk = b + k * bitTime clk := by omega
  obtain ⟨s₁, hfinish, hport, hend, hfound⟩ := finish_run clk line
    (s := { s with carry := false, now := s.now + 1 + 2 }) h (show k + (9 - k) = 9 by omega) hfuel
    hnow
  have hwait := x4wait_run clk { s₁ with
    r24 := s₁.recv.c, r25 := 0xff, now := s₁.now + 2 + 3 }
  have hstart : ending clk line s = (do
      finish clk line 10
      modify fun s => { s with r24 := s.recv.c, r25 := 0xff }
      tick 2
      tick 3
      x4wait clk
      tick 4 : LineM Unit) { s with carry := false, now := s.now + 1 + 2 } := by
    rw [ending, bind_run cpZero, get_bind_run, ite_run]
    exact if_pos h.mode_ne
  have hmove : (do
      modify fun s => { s with r24 := s.recv.c, r25 := 0xff }
      tick 2
      tick 3
      x4wait clk
      tick 4 : LineM Unit) s₁ = (do x4wait clk; tick 4 : LineM Unit) { s₁ with
        r24 := s₁.recv.c, r25 := 0xff, now := s₁.now + 2 + 3 } := rfl
  rw [hstart, bind_of_run hfinish, hmove, bind_of_run hwait]
  refine ⟨_, rfl, rfl, rfl, hport, hfound, ?_⟩
  show s₁.now + 2 + 3 + bitWait clk + 4 = _
  rw [hend]
  show s.now + 1 + 2 + (9 - k) * bitTime clk + 6 + 2 + 3 + bitWait clk + 4 = _
  omega

theorem heard_start (s : State) : Waiting ⟨0, s.recv.c, 9⟩ := ⟨rfl, rfl⟩

/-- The frame that goes out does not depend on what comes in. -/
theorem uartTx_port (c : Byte) (s : State) :
    (uartTx clk line c s).2.port = frameOut clk c (s.now + 8) s.port := by
  obtain ⟨s', hrun, hnow, hrecv, hport⟩ := sent_run clk line c s
  have hout : highFrom (s'.now + 6) s'.port = frameOut clk c (s.now + 8) s.port := by
    rw [hport, frameOut, show s'.now + 6 = s.now + 8 + 9 * bitTime clk by omega]
  have hscan : _ ∨ Caught clk line (fun _ => True) 9 (s.now + 11 + 9 * bitTime clk)
      (heard clk line s) :=
    scan (fun _ => True) (fun _ => True) (fun _ _ _ => trivial) (fun _ _ _ _ _ _ => trivial)
      (heard_start s) trivial 9 (by decide)
  rw [hrun]
  rcases hscan with ⟨hwaiting, -⟩ | ⟨i, b, k, hk, hk9, -, hfound, ht⟩
  · obtain ⟨s'', hend, -, -, hhigh, -⟩ := ending_alone clk line (s := s')
      (by rw [hrecv]; exact hwaiting.mode)
    rw [hend]
    exact hhigh.trans hout
  · have hlater : s'.now + 9 + (i.toNat - 1) * phaseTime clk = b + k * bitTime clk := by
      omega
    obtain ⟨s'', hend, -, -, hhigh, -⟩ := ending_caught clk line (hrecv ▸ hfound) hk hk9 hlater
    rw [hend]
    exact hhigh.trans hout

theorem frameOut_before (c : Byte) {e u : Nat} (port : Nat → Bool) (hu : u < e) :
    frameOut clk c e port u = port u := by
  rw [frameOut, highFrom, if_neg (by omega), sent_before _ _ _ _ _ hu]

theorem frameOut_after (c : Byte) {e u : Nat} (port : Nat → Bool) (hu : e + 9 * bitTime clk ≤ u) :
    frameOut clk c e port u = true := if_pos hu

theorem bitTime_pos : 0 < bitTime clk := by
  rw [bitTime]
  omega

theorem frameOut_bit (c : Byte) {e u k : Nat} (port : Nat → Bool) (hk : k < 9)
    (hlo : e + k * bitTime clk ≤ u) (hhi : u < e + (k + 1) * bitTime clk) :
    frameOut clk c e port u = frameBit c k := by
  have hend : (k + 1) * bitTime clk ≤ 9 * bitTime clk := Nat.mul_le_mul_right _ hk
  rw [frameOut, highFrom, if_neg (by omega), sent_during hk hlo hhi, outgoing_frame c hk]

/-- A start bit, the data and a stop bit, each as long as the next. -/
theorem frameOut_carries (c : Byte) (e : Nat) (port : Nat → Bool) :
    Carries (frameOut clk c e port) e (bitTime clk) c := by
  intro u hlo hhi
  have hpos := bitTime_pos clk
  obtain ⟨k, hk⟩ : ∃ k, k = (u - e) / bitTime clk := ⟨_, rfl⟩
  have hcut : k * bitTime clk ≤ u - e ∧ u - e < (k + 1) * bitTime clk := by
    rw [hk, Nat.succ_mul]
    have := Nat.div_add_mod (u - e) (bitTime clk)
    have hcomm := Nat.mul_comm (bitTime clk) ((u - e) / bitTime clk)
    have hmod := Nat.mod_lt (u - e) hpos
    omega
  rw [← hk]
  by_cases hlast : k < 9
  · exact frameOut_bit clk c port hlast (by omega) (by omega)
  · have hnine : 9 * bitTime clk ≤ k * bitTime clk := Nat.mul_le_mul_right _ (by omega)
    rw [frameOut_after clk c port (by omega)]
    obtain ⟨j, rfl⟩ : ∃ j, k = j + 1 := ⟨k - 1, by omega⟩
    exact (if_neg (by omega)).symm

end Runs

end UartLine

end CpMega88
