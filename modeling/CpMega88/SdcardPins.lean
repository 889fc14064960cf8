import CpMega88.Lib.Bytes
import CpMega88.Lib.Fuel
import CpMega88.Lib.Runs

/-!
# The card driver of the AVR

`sdcard_avr.c`: a card on four pins, clocked by hand one bit at a time,
over whatever these are attached to (`Board`). Which port register makes
the levels of the three outputs depends on the chip and is left out.

`unsigned long` has 32 bits here.
-/

namespace CpMega88

open Bytes Runs

namespace SdcardPins

abbrev ULong32 := BitVec 32

/-- The static variables of the driver. -/
structure Statics where
  /-- The 512 bytes of `buffer`; the rest is what lies behind them. -/
  buffer : Nat → Byte
  crc : Word
  curBlk : ULong32
  ccs : Byte

/-! ## The pins -/

inductive Pin where
  | ck
  | di
  | cs

/-- `P_DO`, which is `_BV(PINC4)`. -/
def pDo : Byte := 0x10

/-- What is behind the pins, next to the static variables. -/
class Board (σ : Type) where
  pinHigh : Pin → StateM σ Unit
  pinLow : Pin → StateM σ Unit
  readPin : StateM σ Byte
  statics : σ → Statics
  withStatics : σ → Statics → σ

variable {σ : Type} [Board σ]

abbrev pinHigh (p : Pin) : StateM σ Unit := Board.pinHigh p

abbrev pinLow (p : Pin) : StateM σ Unit := Board.pinLow p

abbrev readPin : StateM σ Byte := Board.readPin

def getStatics : StateM σ Statics := return Board.statics (← get)

def setStatics (f : Statics → Statics) : StateM σ Unit :=
  modify fun s => Board.withStatics s (f (Board.statics s))

theorem getStatics_bind_run {α : Type} (k : Statics → StateM σ α) (s : σ) :
    (getStatics >>= k) s = k (Board.statics s) s := rfl

theorem setStatics_bind_run {α : Type} (f : Statics → Statics) (k : Unit → StateM σ α) (s : σ) :
    (setStatics f >>= k) s = k () (Board.withStatics s (f (Board.statics s))) := rfl

/-! ## Bytes and commands -/

/-- The body of the loop of `sd_out`. -/
def sdOutBit (c : Byte) (i : Nat) : StateM σ Unit := do
  pinLow .ck
  if c.getLsbD i = true then pinHigh .di else pinLow .di
  pinHigh .ck

def sdOut (c : Byte) : StateM σ Unit := do
  [7, 6, 5, 4, 3, 2, 1, 0].forM (sdOutBit c)
  pinLow .ck

/-- The loop of `sd_busy`, with so much of `timeout` left. -/
def sdBusyLoop (f : Byte) : Nat → StateM σ Int
  | 0 => return -1
  | timeout + 1 => do
      pinHigh .ck
      let c ← readPin
      pinLow .ck
      if f &&& pDo = c &&& pDo then return 0 else sdBusyLoop f timeout

def sdBusy (f : Byte) : StateM σ Int := sdBusyLoop f 0xffff

/-- The loop of `sd_in`, with so many bits left. -/
def sdInLoop : Nat → ULong32 → StateM σ ULong32
  | 0, rc => return rc
  | n + 1, rc => do
      pinHigh .ck
      let c ← readPin
      pinLow .ck
      sdInLoop n (if c &&& pDo ≠ 0 then rc <<< 1 ||| 1 else rc <<< 1)

def sdIn (n : Nat) : StateM σ ULong32 := sdInLoop n 0

/-- How many bits of the answer are left once its first has been seen. -/
def replyBits (cmd : Byte) : Nat := if cmd = 0x48 ∨ cmd = 0x7a then 39 else 7

def sdCmd (cmd arg0 arg1 arg2 arg3 crc : Byte) : StateM σ ULong32 := do
  pinHigh .di
  pinLow .cs
  sdOut cmd
  sdOut arg0
  sdOut arg1
  sdOut arg2
  sdOut arg3
  sdOut crc
  pinHigh .di
  if (← sdBusy 0) < 0 then return 0xffffffff
  else sdIn (replyBits cmd)

/-! ## Opening a card -/

/-- `sdcard_init`. -/
def init : StateM σ Unit := do
  pinLow .ck
  pinLow .di
  pinLow .cs
  setStatics fun st => { st with curBlk := 0 }

/-- The clocks before the first command. -/
def initClock : Nat → StateM σ Unit
  | 0 => return
  | n + 1 => do
      pinHigh .ck
      pinLow .ck
      initClock n

def cmd0 : StateM σ ULong32 := sdCmd 0x40 0x00 0x00 0x00 0x00 0x95

def cmd8 : StateM σ ULong32 := sdCmd 0x48 0x00 0x00 0x01 0xaa 0x87

def cmd1 : StateM σ ULong32 := sdCmd 0x41 0x00 0x00 0x00 0x00 0x00

def cmd55 : StateM σ ULong32 := sdCmd 0x77 0x00 0x00 0x00 0x00 0x01

def acmd41 : StateM σ ULong32 := sdCmd 0x69 0x40 0x00 0x00 0x00 0x77

def cmd58 : StateM σ ULong32 := sdCmd 0x7a 0x00 0x00 0x00 0x00 0xfd

/-- A turn of the loop of `cmd1`: it is left by `break`, or on a timeout by
the `return` inside it. -/
def legacyTurn : Prog σ (Option ULong32) := do
  let rc ← Prog.lift cmd1
  return if rc = 0 ∨ rc = 0xffffffff then some rc else none

/-- A turn of the loop of `cmd55` and `acmd41`. -/
def readyTurn : Prog σ (Option ULong32) := do
  discard (Prog.lift cmd55)
  let rc ← Prog.lift acmd41
  return if rc ≠ 0 then none else some rc

/-- A turn of the loop of `cmd58`. -/
def ocrTurn : Prog σ (Option ULong32) := do
  let rc ← Prog.lift cmd58
  return if rc &&& 0x80000000 = 0 then none else some rc

/-- `ccs` is set, and the card is open. -/
def opened (ccs : Byte) : StateM σ Int := do
  setStatics fun st => { st with ccs := ccs }
  pinLow .ck
  return 0

def legacy (fuel : Nat) : Prog σ Int := do
  let rc ← Prog.attempts legacyTurn fuel
  if rc = 0xffffffff then return -2
  else if rc ≠ 0 then return -3
  else Prog.lift (opened 0)

def readOcr (fuel : Nat) : Prog σ Int := do
  let rc ← Prog.attempts ocrTurn fuel
  Prog.lift (opened (if rc &&& 0x40000000 ≠ 0 then 1 else 0))

def standard (fuel : Nat) : Prog σ Int := do
  discard (Prog.attempts readyTurn fuel)
  readOcr fuel

def ifCond (fuel : Nat) : Prog σ Int := do
  let rc ← Prog.lift cmd8
  if rc &&& 0xfff ≠ 0x1aa then legacy fuel else standard fuel

def goIdle (fuel : Nat) : Prog σ Int := do
  let rc ← Prog.lift cmd0
  if rc ≠ 1 then return -1 else ifCond fuel

def powerUp : StateM σ Unit := do
  pinHigh .di
  pinHigh .cs
  initClock 80

/-- `sdcard_open`; each of its loops makes at most `fuel` turns. -/
def sdcardOpen (fuel : Nat) : Prog σ Int := do
  Prog.lift powerUp
  goIdle fuel

/-! ## Blocks -/

/-- A command about a block; an SDHC card counts blocks, not bytes. -/
def blockCmd (cmd : Byte) (blkAddr : ULong32) : StateM σ ULong32 := do
  let blkAddr := if (← getStatics).ccs ≠ 0 then blkAddr >>> 9 else blkAddr
  sdCmd cmd ((blkAddr >>> 24).setWidth 8) ((blkAddr >>> 16).setWidth 8)
    ((blkAddr >>> 8).setWidth 8) (blkAddr.setWidth 8) 0x00

/-- `buffer[i] = sd_in(8)` for so many `i` from here on. -/
def receive (i : Nat) : Nat → StateM σ Unit
  | 0 => return
  | n + 1 => do
      let c ← sdIn 8
      setStatics fun st => { st with buffer := Function.update st.buffer i (c.setWidth 8) }
      receive (i + 1) n

/-- `sdcard_fetch`. -/
def fetch (blkAddr : ULong32) : StateM σ Int := do
  setStatics fun st => { st with curBlk := blkAddr }
  let rc ← blockCmd 0x51 blkAddr
  if rc ≠ 0 then return -1
  else if (← sdBusy 0) < 0 then return -2
  else
    receive 0 512
    let rc ← sdIn 8
    let low ← sdIn 8
    setStatics fun st => { st with crc := (rc <<< 8 ||| low).setWidth 16 }
    pinLow .ck
    return 0

/-- `sd_out(buffer[i])` for so many `i` from here on. -/
def transmit (i : Nat) : Nat → StateM σ Unit
  | 0 => return
  | n + 1 => do
      sdOut ((← getStatics).buffer i)
      transmit (i + 1) n

/-- `sdcard_store`. -/
def store (blkAddr : ULong32) : StateM σ Int := do
  let rc ← blockCmd 0x58 blkAddr
  if rc ≠ 0 then return -1
  else
    sdOut 0xff
    sdOut 0xfe
    transmit 0 512
    sdOut 0xff
    sdOut 0xff
    if (← sdBusy 0) < 0 then return -3
    else
      let rc ← sdIn 4
      if (← sdBusy 0xff) < 0 then return -4
      else if rc ≠ 5 then return if rc ≠ 0 then -rc.toNat else -5
      else
        pinLow .ck
        return 0

/-- `sdcard_flush`. -/
def flush : StateM σ Int := do store (← getStatics).curBlk

/-- `sdcard_crc`. -/
def crc : StateM σ Word := return (← getStatics).crc

/-- `sdcard_read`. -/
def read (offset : Word) : StateM σ Byte := return (← getStatics).buffer offset.toNat

/-- `sdcard_write`. -/
def write (offset : Word) (data : Byte) : StateM σ Unit :=
  setStatics fun st => { st with buffer := Function.update st.buffer offset.toNat data }

end SdcardPins

end CpMega88
