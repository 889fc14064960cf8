import CpMega88.Lib.Bytes
import CpMega88.Lib.Splice

/-!
# The EEPROM

`eeprom_image.c`, `eeprom_posix.c` and `eeprom_base.c`: 512 bytes kept in
a static buffer, which is read from `eeprom.img` at the first access and
written back as a whole after every change. The file operations succeed
as far as the file's permissions allow.
-/

namespace CpMega88

open Bytes Splice

namespace Eeprom

/-- `EEPROM_SIZE`. -/
def eepromSize : Nat := 512

/-- How `fopen` has opened the file: `r+`, `w` or `r`. -/
inductive Mode where
  | update
  | create
  | read
deriving DecidableEq

structure Rom where
  buffer : Nat → Byte
  loaded : Nat
  fp : Option Mode
  /-- The contents of `eeprom.img`, if there is one. -/
  file : Option (List Byte)
  /-- Whether the file may be written, and made. -/
  writable : Bool
  creatable : Bool
  /-- The bytes after each call of `eeprom_write` so far. The program has no
  such thing; it says what a run leaves if power is lost on the way. -/
  trail : List (Word → Byte)

abbrev EepromM := StateM Rom

/-- The three attempts to open the file: `r+`, then `w`, which makes an
empty one, then `r`. -/
def fopen (e : Rom) : Option Mode × Option (List Byte) :=
  match e.file with
  | some bytes => (if e.writable then some .update else some .read, some bytes)
  | none => if e.creatable then (some .create, some []) else (none, none)

/-- `eeprom_load`: the number of bytes read, from a file just opened. -/
def load : EepromM Nat := do
  if (← get).fp.isSome then return eepromSize
  else
    modify fun e => { e with fp := (fopen e).1, file := (fopen e).2 }
    let e ← get
    match e.fp, e.file with
    | none, _ | some .create, _ | _, none => return 0
    | some _, some bytes =>
      let n := min eepromSize bytes.length
      modify fun e => { e with buffer := splice e.buffer (fun i => bytes.getD i 0) 0 n }
      return n

def flush : EepromM Unit := modify fun e =>
  match e.fp, e.file with
  | some .update, some bytes | some .create, some bytes =>
    { e with file := some ((List.range eepromSize).map e.buffer ++ bytes.drop eepromSize) }
  | _, _ => e

def ensure : EepromM Unit := do
  if (← get).loaded = 0 then
    let n ← load
    modify fun e => { e with
      loaded := n
      buffer := splice e.buffer (fun _ => 0xff) n (eepromSize - n) }

def Rom.logged (e : Rom) : Rom := { e with trail := e.trail ++ [fun a => e.buffer a.toNat] }

def write (addr : Word) (data : Byte) : EepromM Unit := do
  ensure
  modify fun e => { e with buffer := Function.update e.buffer addr.toNat data }
  flush
  modify Rom.logged

def read (addr : Word) : EepromM Byte := do
  ensure
  return (← get).buffer addr.toNat

/-- `eeprom_write_string`, with the final NUL. -/
def writeString (addr : Word) : List Byte → EepromM Unit
  | [] => write addr 0
  | c :: s => do
    write addr c
    if c = 0 then pure () else writeString (addr + 1) s

end Eeprom

end CpMega88
