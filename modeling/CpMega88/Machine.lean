import CpMega88.Console
import CpMega88.Eeprom
import CpMega88.Fat

/-!
# The machine

`machine.c` of the POSIX build: the port callbacks `in` and `out`, the
disk controller behind ports 10 to 16, and the monitor commands that
mount, change directory, list and boot. The static variables of all files
are one state; `io_in` and `io_out` are those of `io_base.c`, the LED
functions do nothing.

`boot` goes up to the first instruction; the registers it clears are
those of the CPU (`Cpu8080.reset`).
-/

namespace CpMega88

open Bytes Fat

namespace Machine

structure State where
  volume : Volume
  sram : Mem
  console : Con.Console
  eeprom : Eeprom.Rom
  wrPrt : Byte
  vtCnv : Byte
  sdFat : Byte
  drive : Byte
  track : Byte
  sect : Byte
  diskErr : Byte
  dmaLo : Byte
  dmaHi : Byte
  esc : Byte

/-- The static variables before the first call, over a card, with zeros in
RAM and no `eeprom.img`. -/
def State.initial (card : Sdcard.Card) : State where
  volume := Volume.initial card
  sram := fun _ => 0
  console := ⟨[], [], -1⟩
  eeprom := ⟨fun _ => 0, 0, none, none, true, true, []⟩
  wrPrt := 0
  vtCnv := 1
  sdFat := 0
  drive := 0
  track := 0
  sect := 0
  diskErr := 0
  dmaLo := 0
  dmaHi := 0
  esc := 0

abbrev MachineM := Prog State

def onVolume {α : Type} (x : FatM α) : MachineM α := fun s =>
  (x s.volume).map fun r => (r.1, { s with volume := r.2 })

def onCard {α : Type} (x : Sdcard.CardM α) : MachineM α := onVolume (Fat.onCard x)

instance : HasConsole State where
  console s := s.console
  setConsole s con := { s with console := con }

export HasConsole (onConsole putchar puts putsln puthex putnumU16)

theorem onConsole_run {α : Type} (x : Prog Con.Console α) (s : State) :
    onConsole x s = (x s.console).map fun r => (r.1, { s with console := r.2 }) := rfl

def onEeprom {α : Type} (x : Eeprom.EepromM α) : MachineM α := fun s =>
  some ((x s.eeprom).1, { s with eeprom := (x s.eeprom).2 })

def sramRead (addr : Word) : MachineM Byte := return (← get).sram addr

def sramWrite (addr : Word) (data : Byte) : MachineM Unit :=
  modify fun s => { s with sram := Function.update s.sram addr data }

/-! ## The disk -/

def diskRead (fuel : Nat) (blk : ULong) : MachineM Unit := do
  if (← get).sdFat = 0 then
    discard (onCard (Sdcard.fetch blk))
  else
    discard (onVolume (fatSeek blk))
    discard (onVolume (fatRead fuel))

/-- `pos` of the command on port 13. -/
def State.pos (s : State) : ULong :=
  (s.track.setWidth 64 * (if s.drive ≠ 0 then 128#64 else 26#64) + s.sect.setWidth 64 - 1#64)
      * 128#64
    + if s.drive ≠ 0 then 256256#64 else 0#64

def State.blk (s : State) : ULong := s.pos &&& 0xfffffe00#64

def State.off (s : State) : Word := (s.pos &&& 0x1ff#64).setWidth 16

def State.dma (s : State) : Word := word s.dmaHi s.dmaLo

def setDiskErr (err : Byte) : MachineM Unit := modify fun s => { s with diskErr := err }

/-- 128 bytes from the card buffer to RAM. -/
def receive (off dma : Word) : MachineM Unit := do
  Prog.upTo 128 fun i => do
    sramWrite (dma + BitVec.ofNat 16 i) (← onCard (Sdcard.read (off + BitVec.ofNat 16 i)))
  setDiskErr 0

/-- 128 bytes from RAM to the card buffer, and the buffer to the card. -/
def send (off dma : Word) : MachineM Unit := do
  Prog.upTo 128 fun i => do
    onCard (Sdcard.write (off + BitVec.ofNat 16 i) (← sramRead (dma + BitVec.ofNat 16 i)))
  setDiskErr (BitVec.ofInt 8 (← onCard Sdcard.flush))
  let err := (← get).diskErr
  if err ≠ 0 then
    puts (ascii "\r\n\r\nI/O ERROR (")
    puthex err
    putsln (ascii ")\r\n\r\n")
    setDiskErr 6

/-- The command on port 13. -/
def command (fuel : Nat) (val : Byte) : MachineM Unit := do
  let s ← get
  if s.drive = 0 ∨ s.drive = 8 then
    diskRead fuel s.blk
    if val = 0 then receive s.off s.dma
    else if val = 1 ∧ s.wrPrt = 0 then send s.off s.dma
    else setDiskErr 7
  else setDiskErr 1

/-! ## Ports -/

def setEsc (esc : Byte) : MachineM Unit := modify fun s => { s with esc := esc }

/-- OUT to port 1, the terminal. -/
def terminal (val : Byte) : MachineM Unit := do
  let vt := (← get).vtCnv = 1
  match (← get).esc with
  | 1 =>
    if val = 0x3d#8 then setEsc 2
    else if val = 0x3b#8 then
      if vt then puts (ascii "\x1b[2J")
      setEsc 0
    else setEsc 0
  | 2 =>
    if vt then
      puts (ascii "\x1b[")
      putnumU16 (val.setWidth 16 - 0x20 + 1) (-1)
    setEsc 3
  | 3 =>
    if vt then
      putchar 0x3b
      putnumU16 (val.setWidth 16 - 0x20 + 1) (-1)
      putchar 0x48
    setEsc 0
  | _ =>
    if (← get).vtCnv = 0 then putchar val
    else if val = 0x1a#8 then
      if vt then puts (ascii "\x1b[2J")
    else if val = 0x1b#8 then setEsc 1
    else putchar val

def out (fuel : Nat) (port val : Byte) : MachineM Unit :=
  match port with
  | 0 => pure ()
  | 1 => terminal val
  | 10 => modify fun s => { s with drive := val }
  | 11 => modify fun s => { s with track := val }
  | 12 => modify fun s => { s with sect := val }
  | 13 => command fuel val
  | 14 => pure ()
  | 15 => modify fun s => { s with dmaLo := val }
  | 16 => modify fun s => { s with dmaHi := val }
  | _ => pure ()

/-- `do c = con_getchar(); while (-1 == c)`, with `left` bytes of input to
come. -/
def waitChar : Nat → Prog Con.Console Int
  | 0 => failure
  | left + 1 => do
    let c ← Prog.lift Con.getchar
    if c = -1 then waitChar left else return c

/-- `in`. -/
def input (port : Byte) : MachineM Byte :=
  match port with
  | 0 => do if (← onConsole (Prog.lift Con.peek)) ≠ 0 then return 0xff else return 0
  | 1 => do
    let c ← onConsole (waitChar ((← get).console.stdin.length + 1))
    return BitVec.ofInt 8 c
  | 10 => return (← get).drive
  | 11 => return (← get).track
  | 12 => return (← get).sect
  | 13 => return 0
  | 14 => return (← get).diskErr
  | 15 => return (← get).dmaLo
  | 16 => return (← get).dmaHi
  | _ => return 0xff

/-! ## The monitor -/

/-- Compare two strings up to a NUL or a delimiter; the end of a list is
its NUL. -/
def strdcmp : List Byte → List Byte → Byte → Int
  | [], s2, s => if s2.headD 0 = 0 ∨ s2.headD 0 = s then 0 else -1
  | c :: s1, s2, s =>
    if (c = 0 ∨ c = s) ∧ (s2.headD 0 = 0 ∨ s2.headD 0 = s) then 0
    else if c ≠ s2.headD 0 then -1
    else strdcmp s1 s2.tail s

/-- The loop of `mount`; `fat_next` finds at most `left` entries more. -/
def mountLoop (fuel : Nat) (name : List Byte) : Nat → MachineM Unit
  | 0 => failure
  | left + 1 => do
    if (← onVolume (fatNext fuel)) < 0 then
      putsln (ascii " err")
      modify fun s => { s with sdFat := 0 }
    else
      let buf ← onVolume fatName
      if strdcmp name buf 0 ≠ 0 then mountLoop fuel name left
      else
        discard (onVolume fatOpen)
        putsln (ascii " ok")
        modify fun s => { s with sdFat := 1 }
        onEeprom (Eeprom.write 16 0)
        onEeprom (Eeprom.writeString 17 name)
        onEeprom (Eeprom.write 16 0x88)

def mount (fuel : Nat) (name : List Byte) : MachineM Unit := do
  puts (ascii "A: ")
  puts name
  onVolume fatRewind
  mountLoop fuel name ((← get).volume.dirEntries.toNat + 1)

/-- The loop of `ls`. -/
def lsLoop (fuel : Nat) : Nat → MachineM Unit
  | 0 => failure
  | left + 1 => do
    if (← onVolume (fatNext fuel)) < 0 then pure ()
    else
      let attr ← onVolume fatAttr
      let name ← onVolume fatName
      putchar 0x20
      putchar (if attr &&& 0x10#8 ≠ 0 then 0x64 else 0x2d)
      putchar (if attr &&& 0x04#8 = 0 then 0x72 else 0x2d)
      putchar (if attr &&& 0x01#8 = 0 then 0x77 else 0x2d)
      putchar (if attr &&& 0x10#8 ≠ 0 then 0x78 else 0x2d)
      putchar 0x20
      puts name
      putsln []
      lsLoop fuel left

def ls (fuel : Nat) : MachineM Unit := do
  onVolume fatRewind
  lsLoop fuel ((← get).volume.dirEntries.toNat + 1)

/-- The loop of `cd`. -/
def cdLoop (fuel : Nat) (arg : List Byte) : Nat → MachineM Unit
  | 0 => failure
  | left + 1 => do
    if (← onVolume (fatNext fuel)) < 0 then pure ()
    else
      let attr ← onVolume fatAttr
      if attr &&& 0x10#8 = 0 then cdLoop fuel arg left
      else
        let name ← onVolume fatName
        if strdcmp arg name 0 ≠ 0 then cdLoop fuel arg left
        else discard (onVolume fatChdir)

/-- `cd`, with or without an argument. -/
def cd (fuel : Nat) : Option (List Byte) → MachineM Unit
  | none => discard (onVolume fatInit)
  | some arg => do
    onVolume fatRewind
    cdLoop fuel arg ((← get).volume.dirEntries.toNat + 1)

/-- `wp` with an argument. -/
def wp (arg : List Byte) : MachineM Unit := do
  puts (ascii "<write protection")
  if strdcmp (ascii "on") arg 0 = 0 then
    puts (ascii " on")
    modify fun s => { s with wrPrt := 1 }
  else
    puts (ascii " off")
    modify fun s => { s with wrPrt := 0 }
  putsln (ascii ">")

/-! ## Boot -/

/-- Load one of the system blocks to E380h and on. -/
def bootBlock (fuel i : Nat) : MachineM Unit := do
  diskRead fuel (BitVec.ofNat 64 i <<< 9)
  Prog.upTo 512 fun j => do
    sramWrite (0xe380 + BitVec.ofNat 16 (i * 512) + BitVec.ofNat 16 j)
      (← onCard (Sdcard.read (BitVec.ofNat 16 j)))

/-- `boot`, up to the first instruction. -/
def boot (fuel : Nat) : MachineM Unit := do
  Prog.upTo 13 (bootBlock fuel)
  Prog.upTo 0x100 fun i => sramWrite (BitVec.ofNat 16 i) 0
  sramWrite 0x0000 0xc3
  sramWrite 0x0001 0x00
  sramWrite 0x0002 0xfa
  sramWrite 0x0005 0xc3
  sramWrite 0x0006 0x06
  sramWrite 0x0007 (0x3c + 0xb0)

end Machine

end CpMega88
