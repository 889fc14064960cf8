import CpMega88.Machine

/-!
# Starting the machine

`machine_boot` of the POSIX build, with the memory and card tests it makes
first, up to the first prompt of the monitor or the first instruction of
the guest. `led_init`, `sram_init`, `io_init` and `con_init` have nothing
to do here. `mem_chk` is written for any memory.

The tests count through all addresses or blocks; the second phase of the
card test goes back a block for every byte that differs, so it may not
return. `readString` returns nothing where the source would write past
its buffer.
-/

namespace CpMega88

open Bytes Fat

/-! ## The memory test -/

namespace MemTest

/-- How a memory is read and written. -/
structure Bus (σ : Type) where
  sramRead : Word → Prog σ Byte
  sramWrite : Word → Byte → Prog σ Unit

/-- The `err |= 4` of both passes. -/
def addrErr (addr : Word) (c : Byte) : Byte :=
  if addr &&& 1 = 0 ∧ loByte addr ≠ c ∨ addr &&& 1 ≠ 0 ∧ hiByte addr ≠ c then 4 else 0

section Code

open HasConsole
open Prog (onlyIf)

variable {σ : Type} [HasConsole σ] (bus : Bus σ)

/-- `err` and `c` at one address; the first pass leaves half of the
address there, the second looks for it. -/
def memProbe (test : Nat) (addr : Word) : Prog σ (Byte × Byte) := do
  if test = 0 then
    bus.sramWrite addr 0xaa
    let c ← bus.sramRead addr
    let err : Byte := if c ≠ 0xaa then 1 else 0
    bus.sramWrite addr 0x55
    let c ← bus.sramRead addr
    let err : Byte := if c ≠ 0x55 then err ||| 2 else err
    bus.sramWrite addr (if addr &&& 1 = 0 then loByte addr else hiByte addr)
    let c ← bus.sramRead addr
    return (err ||| addrErr addr c, c)
  else
    let c ← bus.sramRead addr
    return (addrErr addr c, c)

/-- One pass over the `left` addresses from `addr` on; false where it has
found an error. -/
def memPass (test : Nat) : Nat → Word → Prog σ Bool
  | 0, _ => return true
  | left + 1, addr => do
    let (err, c) ← memProbe bus test addr
    if err ≠ 0 then
      puts (ascii (if test = 0 then "write failed at 0x" else "address failed at 0x"))
      puthex (hiByte addr)
      puthex (loByte addr)
      puts (ascii " (")
      puthex (if test = 0 then err else c)
      putsln (ascii ")")
      return false
    else
      onlyIf (addr &&& 0xfff = 0xfff) do
        puts (ascii (if test = 0 then "memory write test: " else "memory address test: "))
        putnumU16 addr 5
        puts (ascii "/65535\r")
      onlyIf (addr = 0xffff) (puts (ascii "\n"))
      memPass test left (addr + 1)

/-- The `left` addresses from `addr` on under one seed; even seeds write,
odd ones only compare. -/
def memFullPass (seed : Nat) : Nat → Word → Int → Prog σ Int
  | 0, _, err => return err
  | left + 1, addr, err => do
    let c := (hiByte addr ^^^ loByte addr) + BitVec.ofNat 8 (seed / 2)
    onlyIf (seed % 2 = 0) (bus.sramWrite addr c)
    let read ← bus.sramRead addr
    memFullPass seed left (addr + 1) (if c ≠ read then err + 1 else err)

def memFull : Nat → Nat → Int → Prog σ Unit
  | 0, _, _ => putsln []
  | left + 1, seed, err => do
    let err ← memFullPass bus seed 65536 0 err
    puts (ascii "memory full test: ")
    putnumU16 (BitVec.ofNat 16 (seed / 2)) 3
    puts (ascii "/256")
    onlyIf (err ≠ 0) do
      puts (ascii " w/ error(s) ")
      putnumU16 (BitVec.ofInt 16 err) 5
    puts (ascii "\r")
    memFull left (seed + 1) err

/-- `mem_chk`. -/
def memChk : Prog σ Unit := do
  if ← memPass bus 0 65536 0 then
    if ← memPass bus 1 65536 0 then memFull bus 0x200 0 0
    else pure ()
  else pure ()

end Code

end MemTest

namespace Machine

export Prog (onlyIf)

def bus : MemTest.Bus State := ⟨sramRead, sramWrite⟩

/-- `mem_chk`, of the machine's own memory. -/
def memChk : MachineM Unit := MemTest.memChk bus

/-! ## The card test -/

/-- `addr` of both phases. -/
def chkAddr (block : Int) : Word := BitVec.ofInt 16 (block * 512)

/-- Phase 1: the card buffer to RAM. The block number is passed as a byte
address. -/
def sdcLoad (block : Nat) : MachineM Unit := do
  discard (onCard (Sdcard.fetch (BitVec.ofNat 64 block)))
  Prog.upTo 512 fun i => do
    sramWrite (chkAddr block + BitVec.ofNat 16 i) (← onCard (Sdcard.read (BitVec.ofNat 16 i)))
  puts (ascii "sdc test phase 1: ")
  putnumU16 (BitVec.ofNat 16 block) 3
  puts (ascii "/127\r")

/-- Phase 2, one byte: true where it differs. -/
def sdcCompare (addr i : Word) : MachineM Bool := do
  let expect ← sramRead (addr + i)
  let actual ← onCard (Sdcard.read i)
  if expect ≠ actual then
    puts (ascii "\r\n@")
    puthex (hiByte (addr + i))
    puthex (loByte (addr + i))
    puts (ascii "\r\nexpect: ")
    puthex expect
    puts (ascii "\r\nactual: ")
    puthex actual
    putsln []
    sramWrite (addr + i) actual
    return true
  else return false

/-- The number of bytes that differ among the `left` from `i` on. -/
def sdcDiffer (addr : Word) : Nat → Nat → MachineM Nat
  | 0, _ => return 0
  | left + 1, i => do
    let b ← sdcCompare addr (BitVec.ofNat 16 i)
    return (← sdcDiffer addr left (i + 1)) + b.toNat

/-- Phase 2, in at most `fuel` turns. -/
def sdcVerify : Nat → Int → Int → MachineM Unit
  | 0, _, _ => failure
  | fuel + 1, block, err => do
    if block < 128 then
      discard (onCard (Sdcard.fetch (BitVec.ofInt 64 block)))
      let n ← sdcDiffer (chkAddr block) 512 0
      let block := block - n
      let err := err + n
      puts (ascii "sdc test phase 2: ")
      putnumU16 (BitVec.ofInt 16 block) 3
      puts (ascii "/127")
      onlyIf (err ≠ 0) do
        puts (ascii " w/ error(s) ")
        putnumU16 (BitVec.ofInt 16 err) 5
      puts (ascii "\r")
      sdcVerify fuel (block + 1) err
    else putsln []

/-- `sdc_chk`. -/
def sdcChk (fuel : Nat) : MachineM Unit := do
  Prog.upTo 128 sdcLoad
  putsln []
  sdcVerify fuel 0 0

/-! ## The parts of `machine_boot` -/

/-- `sdcard_open` and what is said about it. -/
def openSd (fuel : Nat) : MachineM Unit := do
  let rc ← onCard Sdcard.openCard
  if 0 ≤ rc then
    putsln (ascii "SDC: ok")
    sdcChk fuel
  else
    puts (ascii "SDC: err(")
    puthex (BitVec.ofInt 8 (-rc))
    putsln (ascii ")")

/-- `fat_init`, whose result is cut to a signed byte. -/
def openFat : MachineM Unit := do
  let rc : Byte := BitVec.ofInt 8 (← onVolume fatInit)
  puts (ascii "FAT: ")
  if 0 ≤ rc.toInt then
    if rc = 4 ∨ rc = 6 then puts (ascii "FAT16")
    else if rc = 0x0b then puts (ascii "FAT32")
    else puthex rc
    putsln []
    modify fun s => { s with sdFat := 1 }
  else
    puthex (-rc)
    putsln []
    modify fun s => { s with sdFat := 0 }

/-- `eeprom_read_string` into a buffer of `n` bytes. -/
def readString : Nat → Word → MachineM (List Byte)
  | 0, _ => failure
  | n + 1, addr => do
    let c ← onEeprom (Eeprom.read addr)
    if c = 0 then return [] else return c :: (← readString n (addr + 1))

def eepromInit : MachineM Unit := do
  Prog.upTo 256 fun i => onEeprom (Eeprom.write (BitVec.ofNat 16 i) 0)
  onEeprom (Eeprom.write 0 0x88)

/-- The file recorded in the EEPROM, if there is one. -/
def remount (fuel : Nat) : MachineM Unit := do
  if (← onEeprom (Eeprom.read 16)) = 0x88 then
    let buf ← readString 13 17
    if (← get).sdFat ≠ 0 then mount fuel buf
    else pure ()
  else pure ()

/-- What is done about the EEPROM; true where it asks for `boot`. -/
def configure (fuel : Nat) : MachineM Bool := do
  if (← onEeprom (Eeprom.read 0)) ≠ 0x88 then
    putsln (ascii "EEPROM: init")
    eepromInit
    return false
  else
    putsln (ascii "EEPROM: load")
    remount fuel
    return (← onEeprom (Eeprom.read 8)) = 0x88

/-- `machine_boot`, to where it has read the EEPROM. -/
def startup (fuel : Nat) : MachineM Bool := do
  onCard Sdcard.init
  putsln (ascii "\r\nbooting CP/Mega88 done.")
  memChk
  openSd fuel
  openFat
  configure fuel

/-- `machine_boot`. -/
def machineBoot (fuel : Nat) : MachineM Unit := do
  if ← startup fuel then boot fuel
  else pure ()

end Machine

end CpMega88
