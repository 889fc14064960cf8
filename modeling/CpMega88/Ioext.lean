import CpMega88.Lib.Bytes
import CpMega88.Lib.Reach
import Mathlib.Tactic.IntervalCases

/-!
# The IOEXT bus

`io_out` and `io_in` of `io_avr.c` on one side, the device of
`ioext_test.ino` on the other, and the wires between them: the data lines
D[7:0], /IOE, /DATA and /W, driven by the host, and /READY, which the host
pulls up and the device pulls down. Each party is a program counter and
its pins, with one function for its next step; in a step of the system one
of them makes at most one access to its pins.

Between two calls the host uses the data port and the control lines other
than /IOE for its memory, and leaves the data port an output. The device
answers an IN with any byte. Its reports on the serial line are left out,
but for "error: port".
-/

namespace CpMega88

open Bytes

namespace Ioext

/-- The level of a line. -/
abbrev Level := Bool

abbrev LOW : Level := false

abbrev HIGH : Level := true

inductive Call where
  | ioOut (port val : Byte)
  | ioIn (port : Byte)

def Call.port : Call → Byte
  | .ioOut port _ | .ioIn port => port

/-- The level of /W that a call asks for. -/
def Call.w : Call → Level
  | .ioOut _ _ => LOW
  | .ioIn _ => HIGH

/-- What went over the bus in one access. -/
structure Access where
  port : Byte
  w : Level
  data : Byte
deriving DecidableEq

/-- The access of a call, `data` being what `io_in` has loaded. -/
def Call.access : Call → Byte → Access
  | .ioOut port val, _ => ⟨port, LOW, val⟩
  | .ioIn port, data => ⟨port, HIGH, data⟩

/-! ## The host -/

/-- The statement the host comes to next. `io_out` and `io_in` share the
names of those they have in common. -/
inductive HostPc where
  | idle
  | setPort (c : Call)
  | addressPhase (c : Call)
  | writeAccess (port val : Byte)
  | activateAddress (c : Call)
  | waitAddress (c : Call) (timeout : Nat) (v : Option Level)
  | checkAddress (c : Call) (timeout : Nat) (v : Option Level)
  | inactivateAddress (c : Call)
  | settleAddress (c : Call) (v : Option Level)
  | setData (c : Call)
  | pullUps (port : Byte)
  | dataPhase (c : Call)
  | activateData (c : Call)
  | waitData (c : Call) (v : Option Level)
  | load (port : Byte)
  | inactivateData (c : Call) (data : Byte)
  | settleData (c : Call) (data : Byte) (v : Option Level)
  | setBack (port data : Byte)
  | revert (c : Call)
  | revertData (c : Call)
  | backToRead (port val : Byte) (served : Bool)

structure Host where
  portd : Byte
  ddrd : Byte
  /-- /IOE, PB3. -/
  ioe : Level
  /-- /DATA, PB7. -/
  data : Level
  /-- /W, PB0. -/
  w : Level
  pc : HostPc
  /-- The calls made. -/
  calls : List Call
  /-- The calls that have returned, except those that gave up. -/
  accesses : List Access

/-- After `sram_init` and `io_init`. -/
def Host.initial : Host := ⟨0, 0xff, HIGH, LOW, LOW, .idle, [], []⟩

/-- One turn of the loop of `is_ready`: what to compare the next read
with, or the result. -/
inductive Sample where
  | again (v : Option Level)
  | result (ready : Bool)

def isReady (v : Option Level) (d : Level) : Sample :=
  if v ≠ some d then .again (some d) else .result (d == LOW)

/-- The next statement of `io_out` or `io_in`, with `ready` on /READY and
`pind` on the data lines. -/
def Host.step (ready : Level) (pind : Byte) (h : Host) : Host :=
  match h.pc with
  | .idle => h
  | .setPort c => { h with portd := c.port, pc := .addressPhase c }
  | .addressPhase (.ioOut port val) => { h with data := HIGH, pc := .writeAccess port val }
  | .addressPhase (.ioIn port) =>
    { h with data := HIGH, w := HIGH, pc := .activateAddress (.ioIn port) }
  | .writeAccess port val => { h with w := LOW, pc := .activateAddress (.ioOut port val) }
  | .activateAddress c => { h with ioe := LOW, pc := .waitAddress c 0xffff none }
  | .waitAddress c 0 _ => { h with pc := .checkAddress c 0 none }
  | .waitAddress c (timeout + 1) v =>
    match isReady v ready with
    | .again v => { h with pc := .waitAddress c (timeout + 1) v }
    | .result true => { h with pc := .checkAddress c (timeout + 1) none }  -- break
    | .result false => { h with pc := .waitAddress c timeout none }
  | .checkAddress c timeout v =>
    match isReady v ready with
    | .again v => { h with pc := .checkAddress c timeout v }
    | .result true => { h with pc := .inactivateAddress c }
    | .result false => { h with pc := .revert c }
  | .inactivateAddress c => { h with ioe := HIGH, pc := .settleAddress c none }
  | .settleAddress c v =>
    match isReady v ready with
    | .again v => { h with pc := .settleAddress c v }
    | .result true => { h with pc := .settleAddress c none }
    | .result false => { h with pc := .setData c }
  | .setData (.ioOut port val) => { h with portd := val, pc := .dataPhase (.ioOut port val) }
  | .setData (.ioIn port) => { h with ddrd := 0, pc := .pullUps port }
  | .pullUps port => { h with portd := 0xff, pc := .dataPhase (.ioIn port) }
  | .dataPhase c => { h with data := LOW, pc := .activateData c }
  | .activateData c => { h with ioe := LOW, pc := .waitData c none }
  | .waitData c v =>
    match isReady v ready with
    | .again v => { h with pc := .waitData c v }
    | .result true =>
      match c with
      | .ioOut port val => { h with pc := .inactivateData (.ioOut port val) val }
      | .ioIn port => { h with pc := .load port }
    | .result false => { h with pc := .waitData c none }
  | .load port => { h with pc := .inactivateData (.ioIn port) pind }
  | .inactivateData c data => { h with ioe := HIGH, pc := .settleData c data none }
  | .settleData c data v =>
    match isReady v ready with
    | .again v => { h with pc := .settleData c data v }
    | .result true => { h with pc := .settleData c data none }
    | .result false =>
      match c with
      | .ioOut port val => { h with pc := .backToRead port val true }
      | .ioIn port => { h with pc := .setBack port data }
  | .setBack port data =>
    { h with ddrd := 0xff, pc := .idle, accesses := h.accesses ++ [⟨port, HIGH, data⟩] }
  | .revert c => { h with ioe := HIGH, pc := .revertData c }
  | .revertData (.ioOut port val) => { h with data := LOW, pc := .backToRead port val false }
  | .revertData (.ioIn _) => { h with data := LOW, pc := .idle }
  | .backToRead port val true =>
    { h with w := HIGH, pc := .idle, accesses := h.accesses ++ [⟨port, LOW, val⟩] }
  | .backToRead _ _ false => { h with w := HIGH, pc := .idle }

/-! ## The device -/

/-- A pin of the device: its mode and the level it has as an output. -/
structure Pin where
  output : Bool
  latch : Level

def Pin.input : Pin := ⟨false, LOW⟩

def Pin.asOutput (p : Pin) : Pin := { p with output := true }

def Pin.write (p : Pin) (l : Level) : Pin := { p with latch := l }

/-- The statement the device comes to next, with the variables of `loop`
that it still reads. -/
inductive DevicePc where
  | idle
  | readPort (i : Nat) (port : Byte)
  | checkData (port : Byte)
  | readW (port : Byte)
  | outputReady (port : Byte) (r : Level)
  | lowReady (port : Byte) (r : Level)
  | waitInactive (port : Byte) (r : Level)
  | inputReady (port : Byte) (r : Level)
  | waitActive (port : Byte) (r : Level)
  | outputAddr (i : Nat) (port reply : Byte)
  | writeAddr (i : Nat) (port reply : Byte)
  | readData (i : Nat) (port data : Byte)
  | outputDone (a : Access)
  | lowDone (a : Access)
  | waitDone (a : Access)
  | inputAddr (i : Nat) (a : Access)
  | inputDone (a : Access)

structure Device where
  /-- The pins on D[7:0]. -/
  addr : Nat → Pin
  nReady : Pin
  pc : DevicePc
  /-- "error: port" has been reported. -/
  error : Bool
  /-- What the loop has seen in the iterations that are over. -/
  iterations : List Access

/-- After `setup`. -/
def Device.initial : Device := ⟨fun _ => .input, .input, .idle, false, []⟩

/-- `x |= (level == HIGH) ? (1 << i) : 0`. -/
def collect (x : Byte) (i : Nat) (level : Level) : Byte :=
  x ||| if level = HIGH then (1 : Byte) <<< i else 0

/-- The next statement of `loop`, with `lines` on the data lines. `reply`
is the byte for the host, should the device be about to answer an IN. -/
def Device.step (nIOE nDATA nW : Level) (lines : Nat → Level) (reply : Byte) (d : Device) :
    Device :=
  match d.pc with
  | .idle => if nIOE = HIGH then d else { d with pc := .readPort 0 0 }
  | .readPort i port =>
    if i < 7 then { d with pc := .readPort (i + 1) (collect port i (lines i)) }
    else { d with pc := .checkData (collect port i (lines i)) }
  | .checkData port => { d with error := d.error || nDATA != HIGH, pc := .readW port }
  | .readW port => { d with pc := .outputReady port nW }
  | .outputReady port r => { d with nReady := d.nReady.asOutput, pc := .lowReady port r }
  | .lowReady port r => { d with nReady := d.nReady.write LOW, pc := .waitInactive port r }
  | .waitInactive port r => if nIOE = LOW then d else { d with pc := .inputReady port r }
  | .inputReady port r => { d with nReady := .input, pc := .waitActive port r }
  | .waitActive port r =>
    if nIOE = HIGH then d
    else if r = HIGH then { d with pc := .outputAddr 0 port reply }
    else { d with pc := .readData 0 port 0 }
  | .outputAddr i port reply =>
    { d with addr := Function.update d.addr i (d.addr i).asOutput, pc := .writeAddr i port reply }
  | .writeAddr i port reply =>
    let addr := Function.update d.addr i ((d.addr i).write (reply.getLsbD i))
    if i < 7 then { d with addr := addr, pc := .outputAddr (i + 1) port reply }
    else { d with addr := addr, pc := .outputDone ⟨port, HIGH, reply⟩ }
  | .readData i port data =>
    if i < 7 then { d with pc := .readData (i + 1) port (collect data i (lines i)) }
    else { d with pc := .outputDone ⟨port, LOW, collect data i (lines i)⟩ }
  | .outputDone a => { d with nReady := d.nReady.asOutput, pc := .lowDone a }
  | .lowDone a => { d with nReady := d.nReady.write LOW, pc := .waitDone a }
  | .waitDone a =>
    if nIOE = LOW then d
    else if a.w = HIGH then { d with pc := .inputAddr 0 a }
    else { d with pc := .inputDone a }
  | .inputAddr i a =>
    let addr := Function.update d.addr i .input
    if i < 7 then { d with addr := addr, pc := .inputAddr (i + 1) a }
    else { d with addr := addr, pc := .inputDone a }
  | .inputDone a =>
    { d with nReady := .input, pc := .idle, iterations := d.iterations ++ [a] }

/-! ## The bus -/

structure System where
  host : Host
  device : Device

/-- /READY, as the host reads it on PB6: low when the device pulls it
down. -/
def System.ready (s : System) : Level :=
  if s.device.nReady.output then s.device.nReady.latch else HIGH

/-- The levels that data line `i` can have: that of the party driving it,
high when it is only pulled up, and any when it floats or both drive it. -/
def System.Line (s : System) (i : Nat) (level : Level) : Prop :=
  match s.host.ddrd.getLsbD i, (s.device.addr i).output with
  | true, false => level = s.host.portd.getLsbD i
  | false, true => level = (s.device.addr i).latch
  | false, false => s.host.portd.getLsbD i = HIGH → level = HIGH
  | true, true => True

/-- A call, an instruction that accesses the memory between two calls, or
a step of the host or of the device. -/
inductive Step : System → System → Prop
  | call {s : System} (c : Call) (h : s.host.pc = .idle) (hddrd : s.host.ddrd = 0xff) :
      Step s { s with host := { s.host with pc := .setPort c, calls := s.host.calls ++ [c] } }
  | memory {s : System} (portd ddrd : Byte) (data w : Level) (h : s.host.pc = .idle) :
      Step s { s with
        host := { s.host with portd := portd, ddrd := ddrd, data := data, w := w } }
  | host {s : System} (pind : Byte) (h : s.host.pc ≠ .idle)
      (hpind : ∀ i < 8, s.Line i (pind.getLsbD i)) :
      Step s { s with host := s.host.step s.ready pind }
  | device {s : System} (lines : Nat → Level) (reply : Byte)
      (hlines : ∀ i < 8, s.Line i (lines i)) :
      Step s { s with
        device := s.device.step s.host.ioe s.host.data s.host.w lines reply }

def Initial (s : System) : Prop := s = ⟨.initial, .initial⟩

/-- The wait for /READY in the address phase has come to its end. -/
def TimedOut (s : System) : Prop := ∃ c v, s.host.pc = .waitAddress c 0 v

/-- A step in a run in which no wait times out. -/
def InTime (s t : System) : Prop := Step s t ∧ ¬ TimedOut s

/-- The step by which the host takes /IOE back without an answer. -/
def GivesUp (s t : System) : Prop := (∃ c, s.host.pc = .revert c) ∧ t.host.ioe = HIGH

/-- A step in a run in which the host gives up only while the device still
waits for /IOE at the head of its loop. -/
def Unnoticed (s t : System) : Prop := Step s t ∧ (GivesUp s t → s.device.pc = .idle)

/-- Both drive a data line. -/
def Fight (s : System) : Prop :=
  ∃ i < 8, s.host.ddrd.getLsbD i = true ∧ (s.device.addr i).output = true

/-! ## What the parties know -/

def Access.header (a : Access) : Byte × Level := (a.port, a.w)

def Call.header (c : Call) : Byte × Level := (c.port, c.w)

/-- `a` is what `c` asks for, with any byte for an IN. -/
def Call.Moves (c : Call) (a : Access) : Prop := a = c.access a.data

/-- The port and direction of the iteration under way, once read. -/
def DevicePc.header : DevicePc → Option (Byte × Level)
  | .outputReady port r | .lowReady port r | .waitInactive port r | .inputReady port r
  | .waitActive port r => some (port, r)
  | .outputAddr _ port _ | .writeAddr _ port _ => some (port, HIGH)
  | .readData _ port _ => some (port, LOW)
  | .outputDone a | .lowDone a | .waitDone a | .inputAddr _ a | .inputDone a => some a.header
  | _ => none

/-- The iteration under way, once its byte has been read or driven. -/
def DevicePc.access : DevicePc → Option Access
  | .outputDone a | .lowDone a | .waitDone a | .inputAddr _ a | .inputDone a => some a
  | _ => none

/-- The ports and directions the iterations have seen. -/
def Device.seen (d : Device) : List (Byte × Level) :=
  d.iterations.map Access.header ++ d.pc.header.toList

/-- The accesses of the iterations, as the device has seen them. -/
def Device.moved (d : Device) : List Access := d.iterations ++ d.pc.access.toList

/-- The call the host is in. -/
def HostPc.call : HostPc → Option Call
  | .idle => none
  | .setPort c | .addressPhase c | .activateAddress c | .waitAddress c _ _ | .checkAddress c _ _
  | .inactivateAddress c | .settleAddress c _ | .setData c | .dataPhase c | .activateData c
  | .waitData c _ | .inactivateData c _ | .settleData c _ _ | .revert c | .revertData c => some c
  | .writeAccess port val | .backToRead port val _ => some (.ioOut port val)
  | .pullUps port | .load port | .setBack port _ => some (.ioIn port)

/-- The host is in a loop that /READY has not ended. -/
def System.hostSpins (s : System) : Prop :=
  match s.host.pc with
  | .waitAddress _ _ _ | .waitData _ _ => s.ready = HIGH
  | .settleAddress _ _ | .settleData _ _ _ => s.ready = LOW
  | _ => False

/-- The device is in a loop that /IOE has not ended. -/
def System.deviceSpins (s : System) : Prop :=
  match s.device.pc with
  | .idle | .waitActive _ _ => s.host.ioe = HIGH
  | .waitInactive _ _ | .waitDone _ => s.host.ioe = LOW
  | _ => False

/-! ## Turns -/

/-- A level that data line `i` can have. -/
def System.level (s : System) (i : Nat) : Level :=
  if (s.device.addr i).output && !s.host.ddrd.getLsbD i then (s.device.addr i).latch
  else s.host.portd.getLsbD i

theorem System.line_level (s : System) (i : Nat) : s.Line i (s.level i) := by
  unfold System.Line System.level
  cases s.host.ddrd.getLsbD i <;> cases (s.device.addr i).output <;>
    first | rfl | exact id | trivial

def System.bus (s : System) : Byte :=
  BitVec.ofBoolListLE [s.level 0, s.level 1, s.level 2, s.level 3, s.level 4, s.level 5, s.level 6,
    s.level 7]

theorem System.line_bus (s : System) : ∀ i < 8, s.Line i (s.bus.getLsbD i) := by
  intro i hi
  have hbit : s.bus.getLsbD i = s.level i := by
    unfold System.bus
    rw [BitVec.getLsbD_ofBoolListLE]
    interval_cases i <;> rfl
  rw [hbit]
  exact s.line_level i

/-- Whose turn it is. -/
inductive Turn where
  | call (c : Call)
  | host
  | device (reply : Byte)

def HostPc.isIdle : HostPc → Bool
  | .idle => true
  | _ => false

theorem HostPc.isIdle_iff {pc : HostPc} : pc.isIdle = true ↔ pc = .idle := by
  cases pc <;> simp [HostPc.isIdle]

/-- One turn, if `allowed` and possible. -/
def System.turn (allowed : System → Bool) (s : System) : Turn → System
  | .call c =>
    if allowed s ∧ s.host.pc.isIdle ∧ s.host.ddrd = 0xff then
      { s with host := { s.host with pc := .setPort c, calls := s.host.calls ++ [c] } }
    else s
  | .host =>
    if allowed s ∧ ¬ s.host.pc.isIdle then { s with host := s.host.step s.ready s.bus } else s
  | .device reply =>
    if allowed s then
      { s with device := s.device.step s.host.ioe s.host.data s.host.w s.level reply }
    else s

theorem turn_step (allowed : System → Bool) (s : System) (m : Turn) :
    s.turn allowed m = s ∨ allowed s = true ∧ Step s (s.turn allowed m) := by
  cases m with
  | call c =>
      rw [System.turn]
      split_ifs with h
      · obtain ⟨hallowed, hidle, hddrd⟩ := h
        exact .inr ⟨hallowed, .call c (HostPc.isIdle_iff.mp hidle) hddrd⟩
      · exact .inl rfl
  | host =>
      rw [System.turn]
      split_ifs with h
      · obtain ⟨hallowed, hbusy⟩ := h
        exact .inr ⟨hallowed, .host _ (fun hidle => hbusy (HostPc.isIdle_iff.mpr hidle)) s.line_bus⟩
      · exact .inl rfl
  | device reply =>
      rw [System.turn]
      split_ifs with hallowed
      · exact .inr ⟨hallowed, .device _ _ fun i _ => s.line_level i⟩
      · exact .inl rfl

theorem reachable_turns {init : System → Prop} {next : System → System → Prop}
    {allowed : System → Bool} (hnext : ∀ s t, allowed s = true → Step s t → next s t)
    (ms : List Turn) {s : System} (h : Reachable init next s) :
    Reachable init next (ms.foldl (System.turn allowed) s) := by
  induction ms generalizing s with
  | nil => exact h
  | cons m rest ih =>
      refine ih ?_
      rcases turn_step allowed s m with hsame | ⟨hallowed, hstep⟩
      · rw [hsame]
        exact h
      · exact .step h (hnext _ _ hallowed hstep)

/-- With /READY high the wait of the address phase comes to its end. -/
theorem reachable_timeout {init : System → Prop} {next : System → System → Prop}
    (hnext : ∀ s t c timeout v, s.host.pc = .waitAddress c timeout v → Step s t → next s t)
    {s : System} {c : Call} {timeout : Nat} (hpc : s.host.pc = .waitAddress c timeout none)
    (hready : s.ready = HIGH) (h : Reachable init next s) :
    Reachable init next { s with host := { s.host with pc := .waitAddress c 0 none } } := by
  induction timeout generalizing s with
  | zero =>
      rw [← hpc]
      exact h
  | succ timeout ih =>
      have hread {s : System} {v : Option Level} (hpc : s.host.pc = .waitAddress c (timeout + 1) v)
          (h : Reachable init next s) :
          Reachable init next { s with host := s.host.step s.ready s.bus } :=
        .step h (hnext _ _ _ _ _ hpc (.host s.bus (by rw [hpc]; nofun) s.line_bus))
      have hfirst := hread hpc h
      simp only [Host.step, hpc, hready, isReady, ne_eq, reduceCtorEq, not_false_eq_true,
        if_true] at hfirst
      have hsecond := hread rfl hfirst
      have hready' : System.ready { s with host := { s.host with
        pc := .waitAddress c (timeout + 1) (some HIGH) } } = HIGH := hready
      simp only [Host.step, hready', isReady, ne_eq, not_true_eq_false, if_false] at hsecond
      exact ih (s := { s with host := { s.host with pc := .waitAddress c timeout none } })
        rfl hready hsecond

end Ioext

end CpMega88
