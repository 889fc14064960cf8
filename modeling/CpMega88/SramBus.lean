import CpMega88.I8080

/-!
# The memory's pins

`_sram_read` and `_sram_write` of `sram_avr_asm.mac`, instruction by
instruction, with `sram_init` and `io_init` before them. On the other side
of ports B and D are the memory chip, the two flip-flops that hold the
address for it, and, in an IOEXT build, the device behind /IOE.

Each instruction takes one cycle. What a port is set to shows on the pins
from the next cycle on, and IN reads the pins as they were in the cycle
before. The chip works while E2 is high: it drives the data lines when /W
is high, and takes what is on them when /W is low.

The assembly core reads and writes its memory in one go (`I8080.sramRead`,
`I8080.sramWrite`); `memory_refines` is what allows it to.
-/

namespace CpMega88

open Bytes Avr Runs

namespace SramBus

structure Board where
  portB : Byte
  ddrB : Byte
  portD : Byte
  ddrD : Byte
  /-- The data lines one cycle ago. -/
  pinD : Byte
  /-- The flip-flops on A[7:0] and on A[15:8]. -/
  low : Byte
  high : Byte
  /-- The chip's cells, by A16 and the sixteen lines below it. -/
  ram : Bool → Mem
  /-- The levels of lines that nobody drives, cycle by cycle. -/
  noise : Nat → Byte
  cycles : Nat
  /-- The chip and the port have driven the data lines together. -/
  clash : Bool
  /-- /IOE has been low. -/
  asked : Bool

/-! ## The lines -/

variable (b : Board)

/-- A line of port B. -/
def Board.line (i : Nat) : Bool :=
  if b.ddrB.getLsbD i then b.portB.getLsbD i else (b.noise b.cycles).getLsbD i || b.portB.getLsbD i

abbrev Board.w : Bool := b.line 0

abbrev Board.e2 : Bool := b.line 1

abbrev Board.a16 : Bool := b.line 2

abbrev Board.ioe : Bool := b.line 3

def Board.reads : Bool := b.e2 && b.w

def Board.writes : Bool := b.e2 && !b.w

def Board.addr : Word := word b.high b.low

/-- The levels of the data lines. A pull-up only decides where nobody
drives. -/
def Board.data : Byte :=
  (b.ddrD &&& b.portD) |||
    (~~~b.ddrD &&& if b.reads then b.ram b.a16 b.addr else b.portD ||| b.noise b.cycles)

/-! ## Cycles -/

/-- What happens around the processor in a cycle. -/
def Board.pass : Board :=
  { b with
    pinD := b.data
    ram := if b.writes then
        Function.update b.ram b.a16 (Function.update (b.ram b.a16) b.addr b.data)
      else b.ram
    cycles := b.cycles + 1
    clash := b.clash || (b.reads && b.ddrD != 0)
    asked := b.asked || !b.ioe }

/-- The flip-flops take the data lines when their clock, PB4 or PB5, goes
high. -/
def Board.clocked (before : Board) : Board :=
  { b with
    low := if !before.line 4 && b.line 4 then b.data else b.low
    high := if !before.line 5 && b.line 5 then b.data else b.high }

/-- A cycle at whose end the ports change. -/
def Board.cycle (f : Board → Board) : Board := (f b.pass).clocked b

inductive Port where
  | ctrl
  | dout
  | ddir
  | ddrb
deriving DecidableEq

def Board.put : Port → Byte → Board
  | .ctrl, v => { b with portB := v }
  | .dout, v => { b with portD := v }
  | .ddir, v => { b with ddrD := v }
  | .ddrb, v => { b with ddrB := v }

def Board.latch : Port → Byte
  | .ctrl => b.portB
  | .dout => b.portD
  | .ddir => b.ddrD
  | .ddrb => b.ddrB

/-! ## Instructions -/

def out (p : Port) (r : Fin 32) : AvrM Board Unit := modify fun s =>
  { s with bus := s.bus.cycle fun b => b.put p (s.r r) }

def inDin (d : Fin 32) : AvrM Board Unit := modify fun s =>
  { s.set d s.bus.pinD with bus := s.bus.cycle id }

def ldi (d : Fin 32) (k : Byte) : AvrM Board Unit := modify fun s =>
  { s.set d k with bus := s.bus.cycle id }

/-! ## The macros -/

section Macros

variable (ioext : Bool)

/-- `IO`. -/
def ctrlIo : Byte := if ioext then 1 <<< 3 ||| 1 <<< 6 else 0

def SEL : Byte := 1 <<< 1

def W_X : Byte := 1 <<< 0

def C1 : Byte := ctrlIo ioext ||| 1 <<< 4

def C2 : Byte := ctrlIo ioext ||| 1 <<< 5

def RD : Byte := ctrlIo ioext ||| SEL ||| W_X

def WR : Byte := ctrlIo ioext ||| SEL

/-- `_sram_read`. -/
def sramRead (adrL adrH dst work : Fin 32) : AvrM Board Unit := do
  out .dout adrL
  ldi work (C1 ioext)
  out .ctrl work
  out .dout adrH
  ldi work (C2 ioext)
  out .ctrl work
  out .ddir I8080.r1
  ldi work (RD ioext)
  out .ctrl work
  out .dout I8080.r1
  ldi work (ctrlIo ioext)
  out .ctrl work
  inDin dst
  ldi work 0xff
  out .ddir work

/-- `_sram_write`. -/
def sramWrite (adrL adrH data work : Fin 32) : AvrM Board Unit := do
  out .dout adrL
  ldi work (C1 ioext)
  out .ctrl work
  out .dout adrH
  ldi work (C2 ioext)
  out .ctrl work
  out .dout data
  ldi work (WR ioext)
  out .ctrl work
  ldi work (ctrlIo ioext)
  out .ctrl work

/-- The part they share: the address goes into the flip-flops. -/
def setAddr (adrL adrH work : Fin 32) : AvrM Board Unit := do
  out .dout adrL
  ldi work (C1 ioext)
  out .ctrl work
  out .dout adrH
  ldi work (C2 ioext)
  out .ctrl work

theorem sramRead_eq (adrL adrH dst work : Fin 32) :
    sramRead ioext adrL adrH dst work = (do
      setAddr ioext adrL adrH work
      out .ddir I8080.r1
      ldi work (RD ioext)
      out .ctrl work
      out .dout I8080.r1
      ldi work (ctrlIo ioext)
      out .ctrl work
      inDin dst
      ldi work 0xff
      out .ddir work) := rfl

theorem sramWrite_eq (adrL adrH data work : Fin 32) :
    sramWrite ioext adrL adrH data work = (do
      setAddr ioext adrL adrH work
      out .dout data
      ldi work (WR ioext)
      out .ctrl work
      ldi work (ctrlIo ioext)
      out .ctrl work) := rfl

end Macros

/-! ## A cycle at a time -/

/-- The port drives the lines of port B that the memory hangs on, and in an
IOEXT build /IOE. -/
structure Board.Driven (ioext : Bool) (b : Board) : Prop where
  w : b.ddrB.getLsbD 0 = true
  e2 : b.ddrB.getLsbD 1 = true
  a16 : b.ddrB.getLsbD 2 = true
  clockLow : b.ddrB.getLsbD 4 = true
  clockHigh : b.ddrB.getLsbD 5 = true
  ioe : ioext = true → b.ddrB.getLsbD 3 = true

/-- Between two accesses. -/
structure Board.Idle (ioext : Bool) (b : Board) : Prop where
  driven : b.Driven ioext
  e2 : b.portB.getLsbD 1 = false
  clockLow : b.portB.getLsbD 4 = false
  ioe : ioext = true → b.portB.getLsbD 3 = true
  ddrD : b.ddrD = 0xff

/-- Where the ports and the flip-flops are during an access, with nothing
else changed since `b₀`. -/
structure Board.At (ioext : Bool) (b₀ b : Board) (portB portD ddrD low high : Byte) : Prop where
  portB : b.portB = portB
  portD : b.portD = portD
  ddrD : b.ddrD = ddrD
  low : b.low = low
  high : b.high = high
  ddrB : b.ddrB = b₀.ddrB
  ram : b.ram = b₀.ram
  clash : b.clash = b₀.clash
  asked : ioext = true → b.asked = b₀.asked

section Cycles

variable {ioext : Bool} {b₀ b : Board} {u d dd lo hi : Byte}

theorem Board.line_driven {b : Board} {i : Nat} (h : b.ddrB.getLsbD i = true) :
    b.line i = b.portB.getLsbD i := if_pos h

theorem Board.Driven.of_ddrB (h₀ : b₀.Driven ioext) (h : b.ddrB = b₀.ddrB) : b.Driven ioext := by
  obtain ⟨hw, he2, ha16, hcl, hch, hioe⟩ := h₀
  rw [← h] at hw he2 ha16 hcl hch hioe
  exact ⟨hw, he2, ha16, hcl, hch, hioe⟩

theorem Board.At.line (h : Board.At ioext b₀ b u d dd lo hi) {i : Nat}
    (h₀ : b₀.ddrB.getLsbD i = true) : b.line i = u.getLsbD i := by
  rw [← h.ddrB] at h₀
  rw [Board.line_driven h₀, h.portB]

theorem Board.At.w (h : Board.At ioext b₀ b u d dd lo hi) (h₀ : b₀.Driven ioext) :
    b.w = u.getLsbD 0 :=
  h.line h₀.w

theorem Board.At.e2 (h : Board.At ioext b₀ b u d dd lo hi) (h₀ : b₀.Driven ioext) :
    b.e2 = u.getLsbD 1 :=
  h.line h₀.e2

theorem Board.At.a16 (h : Board.At ioext b₀ b u d dd lo hi) (h₀ : b₀.Driven ioext) :
    b.a16 = u.getLsbD 2 :=
  h.line h₀.a16

/-- The port drives all the data lines. -/
theorem Board.data_driven {b : Board} (h : b.ddrD = 0xff) : b.data = b.portD := by
  rw [Board.data, h, show (0xff : Byte) = BitVec.allOnes 8 from rfl, BitVec.allOnes_and,
    BitVec.not_allOnes, BitVec.zero_and, BitVec.or_zero]

/-- The chip drives them. -/
theorem Board.data_reads {b : Board} (h : b.ddrD = 0) (hr : b.reads = true) :
    b.data = b.ram b.a16 b.addr := by
  rw [Board.data, h, if_pos hr, show (0 : Byte) = 0#8 from rfl, BitVec.zero_and, BitVec.not_zero,
    BitVec.allOnes_and, BitVec.zero_or]

/-- A cycle in which the chip stores nothing and drives nothing that the
port drives. -/
theorem Board.At.pass (h : Board.At ioext b₀ b u d dd lo hi) (h₀ : b₀.Driven ioext)
    (hchip : u.getLsbD 1 = false ∨ u.getLsbD 0 = true ∧ dd = 0)
    (hioe : ioext = true → u.getLsbD 3 = true) : Board.At ioext b₀ b.pass u d dd lo hi := by
  have hw := h.w h₀
  have he2 := h.e2 h₀
  have hwrites : b.writes = false := by
    rw [Board.writes, hw, he2]
    rcases hchip with h1 | ⟨h0, -⟩
    · rw [h1]; rfl
    · rw [h0, Bool.not_true, Bool.and_false]
  have hclash : (b.reads && b.ddrD != 0) = false := by
    rw [Board.reads, hw, he2, h.ddrD]
    rcases hchip with h1 | ⟨-, rfl⟩
    · rw [h1]; rfl
    · rw [bne_self_eq_false, Bool.and_false]
  refine ⟨h.portB, h.portD, h.ddrD, h.low, h.high, h.ddrB, ?_, ?_, fun hx => ?_⟩
  · show (if b.writes then _ else b.ram) = _
    rw [hwrites]
    exact h.ram
  · show (b.clash || (b.reads && b.ddrD != 0)) = _
    rw [hclash, Bool.or_false]
    exact h.clash
  · show (b.asked || !b.ioe) = _
    rw [Board.ioe, h.line (h₀.ioe hx), hioe hx, Bool.not_true, Bool.or_false]
    exact h.asked hx

/-- The board once a byte is in the lower bank. -/
def Board.stored (b : Board) (a : Word) (v : Byte) : Board :=
  { b with ram := Function.update b.ram false (Function.update (b.ram false) a v) }

theorem Board.stored_lower (b : Board) (a : Word) (v : Byte) :
    (b.stored a v).ram false = Function.update (b.ram false) a v :=
  rfl

theorem Board.stored_upper (b : Board) (a : Word) (v : Byte) :
    (b.stored a v).ram true = b.ram true :=
  rfl

theorem Board.stored_stored (b : Board) (a : Word) (v : Byte) :
    (b.stored a v).stored a v = b.stored a v := by
  simp only [Board.stored, Function.update_self, Function.update_idem]

/-- A cycle in which the chip stores. -/
theorem Board.At.pass_stores (h : Board.At ioext b₀ b u d 0xff lo hi) (h₀ : b₀.Driven ioext)
    (hw : u.getLsbD 0 = false) (he2 : u.getLsbD 1 = true) (ha16 : u.getLsbD 2 = false)
    (hioe : ioext = true → u.getLsbD 3 = true) :
    Board.At ioext (b₀.stored (word hi lo) d) b.pass u d 0xff lo hi := by
  have hlw := h.w h₀
  have hle2 := h.e2 h₀
  have hla16 := h.a16 h₀
  rw [hw] at hlw
  rw [he2] at hle2
  rw [ha16] at hla16
  have hwrites : b.writes = true := by rw [Board.writes, hlw, hle2]; rfl
  have hreads : b.reads = false := by rw [Board.reads, hlw, hle2]; rfl
  refine ⟨h.portB, h.portD, h.ddrD, h.low, h.high, h.ddrB, ?_, ?_, fun hx => ?_⟩
  · show (if b.writes then _ else b.ram) = _
    rw [hwrites, if_pos rfl, hla16, Board.addr, h.high, h.low,
      Board.data_driven h.ddrD, h.portD, h.ram]
    rfl
  · show (b.clash || (b.reads && b.ddrD != 0)) = _
    rw [hreads, Bool.false_and, Bool.or_false]
    exact h.clash
  · show (b.asked || !b.ioe) = _
    rw [Board.ioe, h.line (h₀.ioe hx), hioe hx, Bool.not_true, Bool.or_false]
    exact h.asked hx

/-- The chip neither stores nor fights, and /IOE is high in an IOEXT
build. -/
def quiet (ioext : Bool) (u dd : Byte) : Bool :=
  (!u.getLsbD 1 || u.getLsbD 0 && dd == 0) && (!ioext || u.getLsbD 3)

theorem Board.At.pass_quiet (h : Board.At ioext b₀ b u d dd lo hi) (h₀ : b₀.Driven ioext)
    (hq : quiet ioext u dd = true) : Board.At ioext b₀ b.pass u d dd lo hi := by
  simp only [quiet, Bool.and_eq_true, Bool.or_eq_true, Bool.not_eq_true', beq_iff_eq] at hq
  refine h.pass h₀ hq.1 fun hx => ?_
  rcases hq.2 with h3 | h3
  · rw [h3] at hx
    contradiction
  · exact h3

/-- The flip-flops keep what they have unless their clock rises. -/
theorem Board.At.cycled {b₁ : Board} {u' d' dd' lo' hi' : Byte} {f : Board → Board}
    (h : Board.At ioext b₀ b u d dd lo hi) (h₀ : b₀.Driven ioext) (h₁ : b₁.ddrB = b₀.ddrB)
    (hf : Board.At ioext b₁ (f b.pass) u' d' dd' lo hi)
    (hlow : (if !u.getLsbD 4 && u'.getLsbD 4 then (f b.pass).data else lo) = lo')
    (hhigh : (if !u.getLsbD 5 && u'.getLsbD 5 then (f b.pass).data else hi) = hi') :
    Board.At ioext b₁ (b.cycle f) u' d' dd' lo' hi' := by
  have hdriven : b₁.ddrB.getLsbD 4 = true ∧ b₁.ddrB.getLsbD 5 = true := by
    rw [h₁]
    exact ⟨h₀.clockLow, h₀.clockHigh⟩
  refine ⟨hf.portB, hf.portD, hf.ddrD, ?_, ?_, hf.ddrB, hf.ram, hf.clash, hf.asked⟩
  · show (if !b.line 4 && (f b.pass).line 4 then (f b.pass).data else (f b.pass).low) = _
    rw [h.line h₀.clockLow, hf.line hdriven.1, hf.low, hlow]
  · show (if !b.line 5 && (f b.pass).line 5 then (f b.pass).data else (f b.pass).high) = _
    rw [h.line h₀.clockHigh, hf.line hdriven.2, hf.high, hhigh]

theorem ite_rise (x : Bool) (v w : Byte) : (if !x && x then v else w) = w := by
  cases x <;> rfl

theorem Board.At.wait (h : Board.At ioext b₀ b u d dd lo hi) (h₀ : b₀.Driven ioext)
    (hq : quiet ioext u dd = true) : Board.At ioext b₀ (b.cycle id) u d dd lo hi :=
  h.cycled h₀ rfl (h.pass_quiet h₀ hq) (ite_rise ..) (ite_rise ..)

theorem Board.At.putDout (h : Board.At ioext b₀ b u d dd lo hi) (h₀ : b₀.Driven ioext)
    (hq : quiet ioext u dd = true) (v : Byte) :
    Board.At ioext b₀ (b.cycle fun b => b.put .dout v) u v dd lo hi := by
  have hp := h.pass_quiet h₀ hq
  exact h.cycled h₀ rfl
    ⟨hp.portB, rfl, hp.ddrD, hp.low, hp.high, hp.ddrB, hp.ram, hp.clash, hp.asked⟩
    (ite_rise ..) (ite_rise ..)

theorem Board.At.putDdir (h : Board.At ioext b₀ b u d dd lo hi) (h₀ : b₀.Driven ioext)
    (hq : quiet ioext u dd = true) (v : Byte) :
    Board.At ioext b₀ (b.cycle fun b => b.put .ddir v) u d v lo hi := by
  have hp := h.pass_quiet h₀ hq
  exact h.cycled h₀ rfl
    ⟨hp.portB, hp.portD, rfl, hp.low, hp.high, hp.ddrB, hp.ram, hp.clash, hp.asked⟩
    (ite_rise ..) (ite_rise ..)

/-- New levels on the control lines while the port drives the data lines:
a clock that rises takes what is on them. -/
theorem Board.At.clockCtrl (h : Board.At ioext b₀ b u d 0xff lo hi) (h₀ : b₀.Driven ioext)
    (hq : quiet ioext u 0xff = true) (v : Byte) {lo' hi' : Byte}
    (hlow : (if !u.getLsbD 4 && v.getLsbD 4 then d else lo) = lo')
    (hhigh : (if !u.getLsbD 5 && v.getLsbD 5 then d else hi) = hi') :
    Board.At ioext b₀ (b.cycle fun b => b.put .ctrl v) v d 0xff lo' hi' := by
  have hp := h.pass_quiet h₀ hq
  have hf : Board.At ioext b₀ (b.pass.put .ctrl v) v d 0xff lo hi :=
    ⟨rfl, hp.portD, hp.ddrD, hp.low, hp.high, hp.ddrB, hp.ram, hp.clash, hp.asked⟩
  refine h.cycled h₀ rfl hf ?_ ?_ <;> rw [Board.data_driven hf.ddrD, hf.portD]
  · exact hlow
  · exact hhigh

/-- A new level on the control lines, with no clock that rises. -/
theorem Board.At.putCtrl (h : Board.At ioext b₀ b u d dd lo hi) (h₀ : b₀.Driven ioext)
    (hq : quiet ioext u dd = true) (v : Byte) (hlow : (!u.getLsbD 4 && v.getLsbD 4) = false)
    (hhigh : (!u.getLsbD 5 && v.getLsbD 5) = false) :
    Board.At ioext b₀ (b.cycle fun b => b.put .ctrl v) v d dd lo hi := by
  have hp := h.pass_quiet h₀ hq
  refine h.cycled h₀ rfl
    ⟨rfl, hp.portD, hp.ddrD, hp.low, hp.high, hp.ddrB, hp.ram, hp.clash, hp.asked⟩ ?_ ?_
  · rw [hlow]; rfl
  · rw [hhigh]; rfl

end Cycles

/-! ## An access on the board -/

section Accesses

variable {ioext : Bool} {b : Board}

theorem Board.Idle.at (h : b.Idle ioext) :
    Board.At ioext b b b.portB b.portD 0xff b.low b.high :=
  ⟨rfl, rfl, h.ddrD, rfl, rfl, rfl, rfl, rfl, fun _ => rfl⟩

theorem Board.Idle.isQuiet (h : b.Idle ioext) : quiet ioext b.portB 0xff = true := by
  rw [quiet, h.e2]
  cases ioext with
  | false => rfl
  | true => rw [h.ioe rfl]; rfl

/-- The board at the end of `setAddr`. -/
def Board.addressed (ioext : Bool) (lo hi : Byte) (b : Board) : Board :=
  ((((((b.cycle fun b => b.put .dout lo).cycle id).cycle fun b => b.put .ctrl (C1 ioext)).cycle
    fun b => b.put .dout hi).cycle id).cycle fun b => b.put .ctrl (C2 ioext))

/-- Both flip-flops have their half of the address. -/
theorem Board.Idle.addressed (h : b.Idle ioext) (lo hi : Byte) :
    Board.At ioext b (b.addressed ioext lo hi) (C2 ioext) hi 0xff lo hi := by
  have h₀ := h.driven
  have h₂ := (h.at.putDout h₀ h.isQuiet lo).wait h₀ h.isQuiet
  have hq₁ : quiet ioext (C1 ioext) 0xff = true := by cases ioext <;> rfl
  have hrise : (if !b.portB.getLsbD 4 && (C1 ioext).getLsbD 4 then lo else b.low) = lo := by
    rw [h.clockLow]
    cases ioext <;> rfl
  have hkeep : (if !b.portB.getLsbD 5 && (C1 ioext).getLsbD 5 then lo else b.high) = b.high := by
    cases ioext <;> cases b.portB.getLsbD 5 <;> rfl
  have h₃ := h₂.clockCtrl h₀ h.isQuiet (C1 ioext) hrise hkeep
  have h₅ := (h₃.putDout h₀ hq₁ hi).wait h₀ hq₁
  refine h₅.clockCtrl h₀ hq₁ (C2 ioext) ?_ ?_ <;> cases ioext <;> rfl

/-- The board at the end of `sramRead`, and its data lines as `inDin` finds
them. -/
def Board.readAt (ioext : Bool) (lo hi : Byte) (b : Board) : Byte × Board :=
  let b₁ := ((((((b.addressed ioext lo hi).cycle fun b => b.put .ddir 0).cycle id).cycle
    fun b => b.put .ctrl (RD ioext)).cycle fun b => b.put .dout 0).cycle id).cycle
      fun b => b.put .ctrl (ctrlIo ioext)
  (b₁.pinD, ((b₁.cycle id).cycle id).cycle fun b => b.put .ddir 0xff)

/-- The board at the end of `sramWrite`. -/
def Board.writeAt (ioext : Bool) (lo hi v : Byte) (b : Board) : Board :=
  (((((b.addressed ioext lo hi).cycle fun b => b.put .dout v).cycle id).cycle
    fun b => b.put .ctrl (WR ioext)).cycle id).cycle fun b => b.put .ctrl (ctrlIo ioext)

theorem Board.Idle.read (h : b.Idle ioext) (lo hi : Byte) :
    (b.readAt ioext lo hi).1 = b.ram false (word hi lo)
      ∧ Board.At ioext b (b.readAt ioext lo hi).2 (ctrlIo ioext) 0 0xff lo hi := by
  have h₀ := h.driven
  have hC2 (v : Byte) : quiet ioext (C2 ioext) v = true := by cases ioext <;> rfl
  have hRD : quiet ioext (RD ioext) 0 = true := by cases ioext <;> rfl
  have hquiet (v : Byte) : quiet ioext (ctrlIo ioext) v = true := by cases ioext <;> rfl
  have hopen := (((h.addressed lo hi).putDdir h₀ (hC2 _) 0).wait h₀ (hC2 0)).putCtrl h₀ (hC2 0)
    (RD ioext) (by cases ioext <;> rfl) (by cases ioext <;> rfl)
  have hdrives := (hopen.putDout h₀ hRD 0).wait h₀ hRD
  have hclose := hdrives.putCtrl h₀ hRD (ctrlIo ioext) (by cases ioext <;> rfl)
    (by cases ioext <;> rfl)
  refine ⟨?_, ((hclose.wait h₀ (hquiet _)).wait h₀ (hquiet _)).putDdir h₀ (hquiet _) 0xff⟩
  -- what IN finds is the level of the cycle in which E2 was still high
  refine (Board.data_reads hdrives.ddrD ?_).trans ?_
  · rw [Board.reads, hdrives.e2 h₀, hdrives.w h₀]
    cases ioext <;> rfl
  · rw [hdrives.a16 h₀, hdrives.ram, Board.addr, hdrives.high, hdrives.low]
    cases ioext <;> rfl

theorem Board.Idle.write (h : b.Idle ioext) (lo hi v : Byte) :
    Board.At ioext (b.stored (word hi lo) v) (b.writeAt ioext lo hi v) (ctrlIo ioext) v 0xff
      lo hi := by
  have h₀ := h.driven
  have hC2 : quiet ioext (C2 ioext) 0xff = true := by cases ioext <;> rfl
  have hopen := (((h.addressed lo hi).putDout h₀ hC2 v).wait h₀ hC2).putCtrl h₀ hC2
    (WR ioext) (by cases ioext <;> rfl) (by cases ioext <;> rfl)
  have hw : (WR ioext).getLsbD 0 = false := by cases ioext <;> rfl
  have he2 : (WR ioext).getLsbD 1 = true := by cases ioext <;> rfl
  have ha16 : (WR ioext).getLsbD 2 = false := by cases ioext <;> rfl
  have hioe : ioext = true → (WR ioext).getLsbD 3 = true := by rintro rfl; rfl
  -- the chip stores twice, the second time while E2 goes down
  have hddrB : (b.stored (word hi lo) v).ddrB = b.ddrB := rfl
  have hstored := hopen.cycled (f := id) h₀ hddrB (hopen.pass_stores h₀ hw he2 ha16 hioe)
    (ite_rise ..) (ite_rise ..)
  have h₁ := h₀.of_ddrB hddrB
  have hagain := hstored.pass_stores h₁ hw he2 ha16 hioe
  rw [Board.stored_stored] at hagain
  refine hstored.cycled (f := fun b => b.put .ctrl (ctrlIo ioext)) h₁ rfl
    ⟨rfl, hagain.portD, hagain.ddrD, hagain.low, hagain.high, hagain.ddrB, hagain.ram,
      hagain.clash, hagain.asked⟩ ?_ ?_ <;>
    cases ioext <;> rfl

end Accesses

/-! ## An access in the processor -/

section Runs

variable {ioext : Bool}

theorem out_run (p : Port) (i : Fin 32) (r : Fin 32 → Byte) (f : Sreg) (st : List Byte)
    (b : Board) :
    out p i ⟨r, f, st, b⟩ = ((), ⟨r, f, st, b.cycle fun b => b.put p (r i)⟩) := rfl

theorem ldi_run (d : Fin 32) (k : Byte) (r : Fin 32 → Byte) (f : Sreg) (st : List Byte)
    (b : Board) :
    ldi d k ⟨r, f, st, b⟩ = ((), ⟨Function.update r d k, f, st, b.cycle id⟩) := rfl

theorem inDin_run (d : Fin 32) (r : Fin 32 → Byte) (f : Sreg) (st : List Byte) (b : Board) :
    inDin d ⟨r, f, st, b⟩ = ((), ⟨Function.update r d b.pinD, f, st, b.cycle id⟩) := rfl

theorem setAddr_run {adrL adrH work : Fin 32} (hadr : adrH ≠ work) (r : Fin 32 → Byte) (f : Sreg)
    (st : List Byte) (b : Board) :
    setAddr ioext adrL adrH work ⟨r, f, st, b⟩ = ((),
      ⟨Function.update r work (C2 ioext), f, st, b.addressed ioext (r adrL) (r adrH)⟩) := by
  simp only [setAddr, bind_run, out_run, ldi_run, Function.update_self, Function.update_idem,
    Function.update_of_ne hadr, Board.addressed]

/-- A register that is overwritten in the end. -/
theorem update_update_update (r : Fin 32 → Byte) (d work : Fin 32) (u v k : Byte) :
    Function.update (Function.update (Function.update r work u) d v) work k
      = Function.update (Function.update r d v) work k := by
  funext i
  by_cases hw : i = work
  · rw [hw, Function.update_self, Function.update_self]
  · rw [Function.update_of_ne hw, Function.update_of_ne hw]
    by_cases hd : i = d
    · rw [hd, Function.update_self, Function.update_self]
    · rw [Function.update_of_ne hd, Function.update_of_ne hd, Function.update_of_ne hw]

theorem sramRead_run (ioext : Bool) (adrL dst : Fin 32) {adrH work : Fin 32}
    (hadr : adrH ≠ work) (hwork : I8080.r1 ≠ work) (s : Avr.State Board)
    (hzero : s.r I8080.r1 = 0) :
    sramRead ioext adrL adrH dst work s = ((),
      { (s.set dst (s.bus.readAt ioext (s.r adrL) (s.r adrH)).1).set work 0xff with
        bus := (s.bus.readAt ioext (s.r adrL) (s.r adrH)).2 }) := by
  obtain ⟨r, f, st, b⟩ := s
  have hr1 : r I8080.r1 = 0 := hzero
  rw [sramRead_eq, bind_of_run (setAddr_run hadr r f st b)]
  simp only [bind_run, out_run, ldi_run, inDin_run, Function.update_self, Function.update_idem,
    Function.update_of_ne hwork, hr1, update_update_update]
  rfl

theorem sramWrite_run (ioext : Bool) (adrL : Fin 32) {adrH data work : Fin 32} (hadr : adrH ≠ work)
    (hdata : data ≠ work) (s : Avr.State Board) :
    sramWrite ioext adrL adrH data work s = ((),
      { s.set work (ctrlIo ioext) with
        bus := s.bus.writeAt ioext (s.r adrL) (s.r adrH) (s.r data) }) := by
  obtain ⟨r, f, st, b⟩ := s
  rw [sramWrite_eq, bind_of_run (setAddr_run hadr r f st b)]
  simp only [bind_run, out_run, ldi_run, Function.update_self, Function.update_idem,
    Function.update_of_ne hdata]
  rfl

end Runs

/-! ## Starting up -/

/-- An assignment to a port. -/
def Board.assign (p : Port) (f : Byte → Byte) (b : Board) : Board :=
  b.cycle fun b => b.put p (f (b.latch p))

def sramInit (b : Board) : Board :=
  (((b.assign .ddrb (· ||| 0x37)).assign .ctrl (· &&& ~~~0x37)).assign .ddir fun _ => 0xff).assign
    .dout fun _ => 0

def ioInit (b : Board) : Board :=
  ((b.assign .ddrb (· &&& ~~~0x40)).assign .ddrb (· ||| 0x88)).assign .ctrl (· ||| 0x48)

/-- The two as `machine_boot` calls them; without IOEXT, `io_init` is
empty. -/
def powerUp (ioext : Bool) (b : Board) : Board :=
  if ioext then ioInit (sramInit b) else sramInit b

theorem sramInit_ports (b : Board) :
    (sramInit b).ddrB = b.ddrB ||| 0x37 ∧ (sramInit b).portB = b.portB &&& ~~~0x37
      ∧ (sramInit b).ddrD = 0xff :=
  ⟨rfl, rfl, rfl⟩

theorem ioInit_ports (b : Board) :
    (ioInit b).ddrB = b.ddrB &&& ~~~0x40 ||| 0x88 ∧ (ioInit b).portB = b.portB ||| 0x48
      ∧ (ioInit b).ddrD = b.ddrD :=
  ⟨rfl, rfl, rfl⟩

/-- However the ports stood before. -/
theorem powerUp_idle (ioext : Bool) (b : Board) : (powerUp ioext b).Idle ioext := by
  obtain ⟨hddrB, hportB, hddrD⟩ := sramInit_ports b
  cases ioext with
  | false =>
      rw [powerUp, if_neg Bool.false_ne_true]
      refine ⟨⟨?_, ?_, ?_, ?_, ?_, nofun⟩, ?_, ?_, nofun, hddrD⟩ <;>
        first | rw [hddrB] | rw [hportB]
      all_goals simp
  | true =>
      rw [powerUp, if_pos rfl]
      obtain ⟨hddrB', hportB', hddrD'⟩ := ioInit_ports (sramInit b)
      rw [hddrB] at hddrB'
      rw [hportB] at hportB'
      refine ⟨⟨?_, ?_, ?_, ?_, ?_, fun _ => ?_⟩, ?_, ?_, fun _ => ?_, hddrD'.trans hddrD⟩ <;>
        first | rw [hddrB'] | rw [hportB']
      all_goals simp

/-! ## Between the accesses -/

section Between

variable {ioext : Bool} {b₀ b : Board} {u d lo hi : Byte}

theorem Board.At.idle (h : Board.At ioext b₀ b u d 0xff lo hi) (h₀ : b₀.Driven ioext)
    (he2 : u.getLsbD 1 = false) (hclock : u.getLsbD 4 = false)
    (hioe : ioext = true → u.getLsbD 3 = true) : b.Idle ioext := by
  obtain rfl := h.portB
  exact ⟨h₀.of_ddrB h.ddrB, he2, hclock, hioe, h.ddrD⟩

theorem Board.At.idle_io (h : Board.At ioext b₀ b (ctrlIo ioext) d 0xff lo hi)
    (h₀ : b₀.Driven ioext) : b.Idle ioext :=
  h.idle h₀ (by cases ioext <;> rfl) (by cases ioext <;> rfl) (by rintro rfl; rfl)

/-- What the memory, the chip and the device behind /IOE have seen. -/
structure Board.Same (ioext : Bool) (b₀ b : Board) : Prop where
  ram : b.ram = b₀.ram
  clash : b.clash = b₀.clash
  asked : ioext = true → b.asked = b₀.asked

theorem Board.At.same (h : Board.At ioext b₀ b u d 0xff lo hi) : Board.Same ioext b₀ b :=
  ⟨h.ram, h.clash, h.asked⟩

/-- So many cycles with nothing on the ports. -/
def Board.waits : Nat → Board → Board
  | 0, b => b
  | n + 1, b => (b.cycle id).waits n

theorem Board.Idle.waits (n : Nat) : ∀ {b : Board}, b.Idle ioext →
    (b.waits n).Idle ioext ∧ Board.Same ioext b (b.waits n) := by
  induction n with
  | zero => exact fun h => ⟨h, rfl, rfl, fun _ => rfl⟩
  | succ n ih =>
      intro b h
      have hnext := h.at.wait h.driven h.isQuiet
      obtain ⟨hidle, hsame⟩ := ih (hnext.idle h.driven h.e2 h.clockLow h.ioe)
      exact ⟨hidle, hsame.ram.trans hnext.ram, hsame.clash.trans hnext.clash,
        fun hx => (hsame.asked hx).trans (hnext.asked hx)⟩

/-- What `io_out` and `io_in` do to the ports: they leave the chip's select
and the clocks of the flip-flops alone. -/
inductive Touch where
  | wait
  | portD (v : Byte)
  | ddrD (v : Byte)
  | raise (m : Byte) (hm : m &&& 0x32 = 0)
  | lower (m : Byte) (hm : m &&& 0x32 = 0)

def Touch.put : Touch → Board → Board
  | .wait, b => b
  | .portD v, b => { b with portD := v }
  | .ddrD v, b => { b with ddrD := v }
  | .raise m _, b => { b with portB := b.portB ||| m }
  | .lower m _, b => { b with portB := b.portB &&& ~~~m }

def Board.touched (b : Board) (ts : List Touch) : Board :=
  ts.foldl (fun b t => b.cycle t.put) b

/-- The chip is off, and the flip-flops hear nothing. -/
structure Board.Asleep (ioext : Bool) (b : Board) : Prop where
  driven : b.Driven ioext
  e2 : b.portB.getLsbD 1 = false
  clockLow : b.portB.getLsbD 4 = false

theorem mask_bits {m : Byte} (hm : m &&& 0x32 = 0) :
    m.getLsbD 1 = false ∧ m.getLsbD 4 = false := by
  have h1 := congrArg (fun v => v.getLsbD 1) hm
  have h4 := congrArg (fun v => v.getLsbD 4) hm
  simp only [BitVec.getLsbD_and] at h1 h4
  exact ⟨by simpa using h1, by simpa using h4⟩

theorem Touch.put_asleep (t : Touch) (h : b.Asleep ioext) : (t.put b).Asleep ioext := by
  obtain ⟨hdriven, he2, hclock⟩ := h
  cases t with
  | wait => exact ⟨hdriven, he2, hclock⟩
  | portD v => exact ⟨hdriven.of_ddrB rfl, he2, hclock⟩
  | ddrD v => exact ⟨hdriven.of_ddrB rfl, he2, hclock⟩
  | raise m hm =>
      obtain ⟨h1, h4⟩ := mask_bits hm
      refine ⟨hdriven.of_ddrB rfl, ?_, ?_⟩
      · rw [Touch.put, BitVec.getLsbD_or, he2, h1]; rfl
      · rw [Touch.put, BitVec.getLsbD_or, hclock, h4]; rfl
  | lower m hm =>
      refine ⟨hdriven.of_ddrB rfl, ?_, ?_⟩
      · rw [Touch.put, BitVec.getLsbD_and, he2, Bool.false_and]
      · rw [Touch.put, BitVec.getLsbD_and, hclock, Bool.false_and]

theorem Touch.put_ram (t : Touch) (b : Board) :
    (t.put b).ram = b.ram ∧ (t.put b).clash = b.clash := by
  cases t <;> exact ⟨rfl, rfl⟩

theorem Board.Asleep.cycle (h : b.Asleep ioext) (t : Touch) :
    (b.cycle t.put).Asleep ioext ∧ (b.cycle t.put).ram = b.ram
      ∧ (b.cycle t.put).clash = b.clash := by
  have he2 : b.e2 = false := (Board.line_driven h.driven.e2).trans h.e2
  have hpass : b.pass.Asleep ioext := ⟨h.driven.of_ddrB rfl, h.e2, h.clockLow⟩
  obtain ⟨hdriven, hoff, hclock⟩ := t.put_asleep hpass
  obtain ⟨hram, hclash⟩ := t.put_ram b.pass
  refine ⟨⟨hdriven.of_ddrB rfl, hoff, hclock⟩, hram.trans ?_, hclash.trans ?_⟩
  · show (if b.writes then _ else b.ram) = _
    rw [Board.writes, he2]
    rfl
  · show (b.clash || (b.reads && b.ddrD != 0)) = _
    rw [Board.reads, he2, Bool.false_and, Bool.false_and, Bool.or_false]

theorem Board.Asleep.touched (ts : List Touch) : ∀ {b : Board}, b.Asleep ioext →
    (b.touched ts).Asleep ioext ∧ (b.touched ts).ram = b.ram
      ∧ (b.touched ts).clash = b.clash := by
  induction ts with
  | nil => exact fun h => ⟨h, rfl, rfl⟩
  | cons t ts ih =>
      intro b h
      obtain ⟨hnext, hram, hclash⟩ := h.cycle t
      obtain ⟨hend, hram', hclash'⟩ := ih hnext
      exact ⟨hend, hram'.trans hram, hclash'.trans hclash⟩

end Between

/-! ## Whole runs -/

section Whole

variable {δ : Type} {ioext : Bool}

/-- The processor without what it is attached to. -/
def core {ε : Type} (s : Avr.State ε) : Avr.State Unit := { s with bus := () }

/-- One thing the program does: instructions that leave the two ports
alone, an access to the memory with the registers a macro may be given, or
a call of `io_out` or `io_in`. -/
inductive Op (ioext : Bool) (δ : Type) where
  | other (n : Nat) (f : Avr.State Unit → Avr.State Unit)
      (hf : ∀ c, c.r I8080.r1 = 0 → (f c).r I8080.r1 = 0)
  | read (adrL adrH dst work : Fin 32) (hadr : adrH ≠ work) (hdst : I8080.r1 ≠ dst)
      (hwork : I8080.r1 ≠ work)
  | write (adrL adrH data work : Fin 32) (hadr : adrH ≠ work) (hdata : data ≠ work)
      (hwork : I8080.r1 ≠ work)
  | device (ts : List Touch) (hts : ∀ b : Board, b.Idle ioext → (b.touched ts).Idle ioext)
      (served : δ → δ) (calls : List PortCall)

def Op.isDevice : Op ioext δ → Bool
  | .device .. => true
  | _ => false

/-- On the pins. -/
def Op.onPins : Op ioext δ → Avr.State Board → Avr.State Board
  | .other n f _, s => { f (core s) with bus := s.bus.waits n }
  | .read adrL adrH dst work _ _ _, s => (sramRead ioext adrL adrH dst work s).2
  | .write adrL adrH data work _ _ _, s => (sramWrite ioext adrL adrH data work s).2
  | .device ts _ _ _, s => { s with bus := s.bus.touched ts }

/-- In the assembly core's own terms. -/
def Op.onCore (env : I8080.Env δ) : Op ioext δ → Avr.State (I8080.Bus δ) →
    Avr.State (I8080.Bus δ)
  | .other _ f _, t => { f (core t) with bus := t.bus }
  | .read adrL adrH dst work _ _ _, t => (I8080.sramRead adrL adrH dst work t).2
  | .write adrL adrH data work _ _ _, t => (I8080.sramWrite env adrL adrH data work t).2
  | .device _ _ served calls, t =>
    { t with bus := { t.bus with dev := served t.bus.dev, calls := t.bus.calls ++ calls } }

def runPins (ops : List (Op ioext δ)) (s : Avr.State Board) : Avr.State Board :=
  ops.foldl (fun s op => op.onPins s) s

def runCore (env : I8080.Env δ) (ops : List (Op ioext δ)) (t : Avr.State (I8080.Bus δ)) :
    Avr.State (I8080.Bus δ) :=
  ops.foldl (fun t op => op.onCore env t) t

/-- The pins' processor is the core's, and the chip's lower bank the core's
memory. -/
structure Mirrors (ioext : Bool) (s : Avr.State Board) (t : Avr.State (I8080.Bus δ)) : Prop where
  core : core s = core t
  mem : s.bus.ram false = t.bus.mem
  zero : s.r I8080.r1 = 0
  idle : s.bus.Idle ioext

/-- The upper bank is as it was, and the data lines have not been fought
over. -/
structure Unseen (b₀ b : Board) : Prop where
  upper : b.ram true = b₀.ram true
  clash : b.clash = b₀.clash

theorem Op.mirrors (op : Op ioext δ) (env : I8080.Env δ) (henv : env.io = ctrlIo ioext)
    {s : Avr.State Board} {t : Avr.State (I8080.Bus δ)} (h : Mirrors ioext s t) :
    Mirrors ioext (op.onPins s) (op.onCore env t) ∧ Unseen s.bus (op.onPins s).bus
      ∧ (ioext = true → op.isDevice = false → (op.onPins s).bus.asked = s.bus.asked) := by
  obtain ⟨r, f, st, b⟩ := s
  obtain ⟨r', f', st', mem, dev, calls⟩ := t
  obtain ⟨hcore, hmem, hzero, hidle⟩ := h
  obtain ⟨rfl, rfl, rfl⟩ : r = r' ∧ f = f' ∧ st = st' := by
    simpa [SramBus.core] using hcore
  obtain rfl : b.ram false = mem := hmem
  cases op with
  | other n g hg =>
      obtain ⟨hidle', hsame⟩ := hidle.waits n
      refine ⟨⟨rfl, congrFun hsame.ram false, hg _ hzero, hidle'⟩,
        ⟨congrFun hsame.ram true, hsame.clash⟩, fun hx _ => hsame.asked hx⟩
  | read adrL adrH dst work hadr hdst hwork =>
      have hrun := sramRead_run ioext adrL dst hadr hwork ⟨r, f, st, b⟩ hzero
      obtain ⟨hvalue, hat⟩ := hidle.read (r adrL) (r adrH)
      have hstate : (Op.read adrL adrH dst work hadr hdst hwork : Op ioext δ).onPins ⟨r, f, st, b⟩
          = _ := congrArg Prod.snd hrun
      rw [hstate]
      refine ⟨⟨?_, congrFun hat.ram false, ?_, hat.idle_io hidle.driven⟩,
        ⟨congrFun hat.ram true, hat.clash⟩, fun hx _ => hat.asked hx⟩
      · exact congrArg (fun v => (⟨Function.update (Function.update r dst v) work 0xff, f, st, ()⟩ :
          Avr.State Unit)) hvalue
      · exact (Function.update_of_ne hwork _ _).trans ((Function.update_of_ne hdst _ _).trans hzero)
  | write adrL adrH data work hadr hdata hwork =>
      have hrun := sramWrite_run ioext adrL hadr hdata ⟨r, f, st, b⟩
      have hat := hidle.write (r adrL) (r adrH) (r data)
      have hstate : (Op.write adrL adrH data work hadr hdata hwork : Op ioext δ).onPins
          ⟨r, f, st, b⟩ = _ := congrArg Prod.snd hrun
      rw [hstate]
      refine ⟨⟨?_, ?_, ?_, hat.idle_io (hidle.driven.of_ddrB rfl)⟩, ⟨?_, hat.clash⟩,
        fun hx _ => hat.asked hx⟩
      · exact congrArg (fun v => (⟨Function.update r work v, f, st, ()⟩ : Avr.State Unit)) henv.symm
      · exact (congrFun hat.ram false).trans (Board.stored_lower ..)
      · exact (Function.update_of_ne hwork _ _).trans hzero
      · exact (congrFun hat.ram true).trans (Board.stored_upper ..)
  | device ts hts served log =>
      have hasleep : b.Asleep ioext := ⟨hidle.driven, hidle.e2, hidle.clockLow⟩
      obtain ⟨-, hram, hclash⟩ := hasleep.touched ts
      exact ⟨⟨rfl, congrFun hram false, hzero, hts b hidle⟩, ⟨congrFun hram true, hclash⟩, nofun⟩

theorem runs_mirror (env : I8080.Env δ) (henv : env.io = ctrlIo ioext) (ops : List (Op ioext δ)) :
    ∀ {s : Avr.State Board} {t : Avr.State (I8080.Bus δ)}, Mirrors ioext s t →
      Mirrors ioext (runPins ops s) (runCore env ops t)
      ∧ Unseen s.bus (runPins ops s).bus
      ∧ (ioext = true → (∀ op ∈ ops, op.isDevice = false) →
        (runPins ops s).bus.asked = s.bus.asked) := by
  induction ops with
  | nil => exact fun h => ⟨h, ⟨rfl, rfl⟩, fun _ _ => rfl⟩
  | cons op ops ih =>
      intro s t h
      obtain ⟨hnext, hunseen, hasked⟩ := op.mirrors env henv h
      obtain ⟨hend, hunseen', hasked'⟩ := ih hnext
      refine ⟨hend, ⟨hunseen'.upper.trans hunseen.upper, hunseen'.clash.trans hunseen.clash⟩,
        fun hx hops => ?_⟩
      rw [List.forall_mem_cons] at hops
      exact (hasked' hx hops.2).trans (hasked hx hops.1)

/-- After `sram_init` and `io_init`, whatever the ports and the chip held
before, the macros are reads and writes of the sixty-four kilobytes in the
lower bank over any run, and nothing else comes of them. -/
theorem memory_refines (env : I8080.Env δ) (henv : env.io = ctrlIo ioext) (ops : List (Op ioext δ))
    (s : Avr.State Board) (hzero : s.r I8080.r1 = 0) (dev : δ) (calls : List PortCall) :
    let started : Avr.State Board := { s with bus := powerUp ioext s.bus }
    let pins := runPins ops started
    let machine := runCore env ops { s with bus := ⟨started.bus.ram false, dev, calls⟩ }
    core pins = core machine ∧ pins.bus.ram false = machine.bus.mem
      ∧ pins.bus.ram true = started.bus.ram true ∧ pins.bus.clash = started.bus.clash
      ∧ (ioext = true → (∀ op ∈ ops, op.isDevice = false) →
        pins.bus.asked = started.bus.asked) := by
  intro started pins machine
  have hstart : Mirrors ioext started
      ({ s with bus := ⟨started.bus.ram false, dev, calls⟩ } : Avr.State (I8080.Bus δ)) :=
    ⟨rfl, rfl, hzero, powerUp_idle ioext s.bus⟩
  obtain ⟨hend, hunseen, hasked⟩ := runs_mirror env henv ops hstart
  exact ⟨hend.core, hend.mem, hunseen.upper, hunseen.clash, hasked⟩

/-- A byte that is stored and loaded back, over a chip of zeros. -/
theorem memory_refines_small :
    let s : Avr.State Board :=
      ⟨fun i => if i = I8080.r22 then 0x5a else 0, .ofByte 0, [],
        ⟨0, 0, 0, 0, 0, 0, 0, fun _ _ => 0, fun _ => 0, 0, false, false⟩⟩
    let ops : List (Op true Unit) := [.write 24 25 22 23 (by decide) (by decide) (by decide),
      .read 24 25 20 23 (by decide) (by decide) (by decide)]
    (runPins ops { s with bus := powerUp true s.bus }).r 20 = 0x5a := by
  intro s ops
  have h := memory_refines { I8080.Env.idle with io := ctrlIo true } rfl ops s rfl () []
  have hr : (runPins ops { s with bus := powerUp true s.bus }).r 20 = _ :=
    congrArg (fun c => c.r 20) h.1
  rw [hr]
  decide +kernel

end Whole

end SramBus

end CpMega88
