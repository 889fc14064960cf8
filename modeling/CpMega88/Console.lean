import CpMega88.Lib.Bytes
import CpMega88.Lib.Prog
import CpMega88.Lib.Runs

/-!
# The console

`con_posix.c` and `con_base.c`. Standard input is a list of what the next
calls of `fgetc` find: a byte, or nothing yet. Once it is used up there
is nothing any more. Standard output is the list of the bytes written.
-/

namespace CpMega88

open Bytes

/-- The bytes of a C string literal. -/
def ascii (s : String) : List Byte := s.toList.map fun c => BitVec.ofNat 8 c.toNat

namespace Con

structure Console where
  stdout : List Byte
  stdin : List (Option Byte)
  fifoFlag : Int

abbrev ConM := StateM Console

def putchar (c : Byte) : ConM Unit :=
  modify fun con => { con with stdout := con.stdout ++ [c] }

def fgetc : ConM Int := do
  let found := (← get).stdin.headD none
  modify fun con => { con with stdin := con.stdin.tail }
  return match found with
    | some c => c.toNat
    | none => -1

def peek : ConM Int := do
  let c ← fgetc
  modify fun con => { con with fifoFlag := c }
  return if c ≠ -1 then 1 else 0

def getchar : ConM Int := do
  if (← get).fifoFlag = -1 then
    discard peek
  let rc := (← get).fifoFlag
  if rc ≠ -1 then
    modify fun con => { con with fifoFlag := -1 }
    return rc
  else return -1

def putHalfhex (c : Byte) : ConM Unit :=
  if c.toNat < 10 then putchar (0x30#8 + c) else putchar (0x41#8 - 10#8 + c)

def puthex (c : Byte) : ConM Unit := do
  putHalfhex (c >>> 4)
  putHalfhex (c &&& 15#8)

/-- A C string ends at its first NUL. -/
def puts (s : List Byte) : ConM Unit := (s.takeWhile (· ≠ 0)).forM putchar

def putsln (s : List Byte) : ConM Unit := do
  puts s
  puts (ascii "\r\n")

/-! ## Numbers -/

/-- The loop of `con_putnum_u16`; it ends with `d`, which has at most five
decimal digits. A zero `d` to begin with traps. -/
def putnumLoop : Nat → Word → Word → Prog Console Unit
  | 0, _, _ => pure ()
  | left + 1, n, d => do
    if d = 0 then failure
    else
      let num := n / d
      Prog.lift (putchar (0x30#8 + num.setWidth 8))
      if d / 10 = 0 then pure () else putnumLoop left (n % d) (d / 10)

/-- `con_putnum_u16`. -/
def putnumU16 (n : Word) (digit : Int) : Prog Console Unit :=
  putnumLoop 5 n (if 0 < digit then 10 ^ (digit.toNat - 1) else 10000)

end Con

/-! ## On a state with the console in it -/

class HasConsole (σ : Type) where
  console : σ → Con.Console
  setConsole : σ → Con.Console → σ

namespace HasConsole

variable {σ : Type} [HasConsole σ]

def onConsole {α : Type} (x : Prog Con.Console α) : Prog σ α := fun s =>
  (x (console s)).map fun r => (r.1, setConsole s r.2)

def putchar (c : Byte) : Prog σ Unit := onConsole (Prog.lift (Con.putchar c))

def puts (s : List Byte) : Prog σ Unit := onConsole (Prog.lift (Con.puts s))

def putsln (s : List Byte) : Prog σ Unit := onConsole (Prog.lift (Con.putsln s))

def puthex (c : Byte) : Prog σ Unit := onConsole (Prog.lift (Con.puthex c))

def putnumU16 (n : Word) (digit : Int) : Prog σ Unit := onConsole (Con.putnumU16 n digit)

end HasConsole

end CpMega88
