import CpMega88.Isa

/-!
# The C core

`cpu_8080.c` as it is written: the flag helpers, the three stack and
jump helpers, and the switch of `cpu_8080_step`, one arm per `case`.

`Work` holds the fields of `cpu_8080_work`; its four function
pointers are represented by what they reach, the memory behind `load_8`
and `store_8` and the devices behind `in` and `out`, with the log of the
calls made to the latter two. Comparisons the C code makes in promoted
`int` arithmetic are made on `Nat` or `Int` here.
-/

namespace CpMega88

open Bytes

namespace Cpu8080

structure Work (δ : Type) where
  a : Byte
  f : Byte
  b : Byte
  c : Byte
  d : Byte
  e : Byte
  h : Byte
  l : Byte
  pc : Word
  sp : Word
  op : Byte
  mem : Mem
  dev : δ
  calls : List PortCall

abbrev CpuM (δ : Type) := StateM (Work δ)

variable {δ : Type}

namespace Work

def bc (w : Work δ) : Word := word w.b w.c
def de (w : Work δ) : Word := word w.d w.e

/-- `get_hl`. -/
def hl (w : Work δ) : Word := word w.h w.l

/-- The architectural part of the work area: everything but `op`. -/
def arch (w : Work δ) : Isa.State δ where
  a := w.a
  f := w.f
  b := w.b
  c := w.c
  d := w.d
  e := w.e
  h := w.h
  l := w.l
  pc := w.pc
  sp := w.sp
  mem := w.mem
  dev := w.dev
  calls := w.calls

end Work

def fCY : Byte := 0x01#8
def fP : Byte := 0x04#8
def fAC : Byte := 0x10#8
def fZ : Byte := 0x40#8
def fS : Byte := 0x80#8

/-! ## Callbacks -/

def load8 (addr : Word) : CpuM δ Byte := return (← get).mem addr

def store8 (addr : Word) (val : Byte) : CpuM δ Unit :=
  modify fun w => { w with mem := Function.update w.mem addr val }

/-- `work->load_8(work->pc++)`. -/
def loadPc : CpuM δ Byte := do
  let v ← load8 (← get).pc
  modify fun w => { w with pc := w.pc + 1 }
  return v

/-- `work->load_8(work->sp++)`. -/
def loadSp : CpuM δ Byte := do
  let v ← load8 (← get).sp
  modify fun w => { w with sp := w.sp + 1 }
  return v

/-- `work->store_8(--work->sp, val)`. -/
def storeSp (val : Byte) : CpuM δ Unit := do
  modify fun w => { w with sp := w.sp - 1 }
  store8 (← get).sp val

def input (ports : Ports δ) (port : Byte) : CpuM δ Byte := fun w =>
  let r := ports.input port w.mem w.dev
  (r.1, { w with mem := r.2.1, dev := r.2.2, calls := .input port r.1 :: w.calls })

def out (ports : Ports δ) (port val : Byte) : CpuM δ Unit := fun w =>
  let r := ports.output port val w.mem w.dev
  ((), { w with mem := r.1, dev := r.2, calls := .output port val :: w.calls })

/-! ## Flags and arithmetic -/

/-- `if (c) work->f |= mask`. -/
def orF (c : Prop) [Decidable c] (mask : Byte) : CpuM δ Unit :=
  modify fun w => { w with f := if c then w.f ||| mask else w.f }

/-- `if (c) work->f |= mask; else work->f &= ~mask`. -/
def putF (c : Prop) [Decidable c] (mask : Byte) : CpuM δ Unit :=
  modify fun w => { w with f := if c then w.f ||| mask else w.f &&& ~~~mask }

def tblPar : List Nat := [1, 0, 0, 1, 0, 1, 1, 0, 0, 1, 1, 0, 1, 0, 0, 1]

def flagZsp (val : Byte) : CpuM δ Unit := do
  orF (0#8 = val) fZ
  modify fun w => { w with f := w.f ||| (val &&& fS) }
  orF (1 ≠ tblPar.getD (val &&& 0x0f#8).toNat 0 + tblPar.getD (val >>> 4).toNat 0) fP

def inr (val : Byte) : CpuM δ Byte := do
  let val := val + 1#8
  modify fun w => { w with f := w.f &&& fCY }
  orF (0x00#8 = val &&& 0x0f#8) fAC
  flagZsp val
  return val

def dcr (val : Byte) : CpuM δ Byte := do
  let val := val - 1#8
  modify fun w => { w with f := w.f &&& fCY }
  orF (0x0f#8 = val &&& 0x0f#8) fAC
  flagZsp val
  return val

def dad (val : Word) : CpuM δ Unit := do
  let hl := (← get).hl
  let r := hl + val
  putF (r < hl) fCY
  modify fun w => { w with h := hiByte r }
  modify fun w => { w with l := loByte r }

def add (val : Byte) : CpuM δ Byte := do
  let a := (← get).a
  let r := a + val
  modify fun w => { w with f := 0#8 }
  orF (r < a) fCY
  orF (r &&& 0xf#8 < a &&& 0xf#8) fAC
  flagZsp r
  return r

def adc (val : Byte) : CpuM δ Byte := do
  let a := (← get).a
  let r := a + val + ((← get).f &&& fCY)
  let c := (← get).f &&& fCY
  modify fun w => { w with f := 0#8 }
  orF (r.toNat < a.toNat + c.toNat) fCY
  orF ((r &&& 0xf#8).toNat < (a &&& 0xf#8).toNat + c.toNat) fAC
  flagZsp r
  return r

def sub (val : Byte) : CpuM δ Byte := do
  let a := (← get).a
  let r := a - val
  modify fun w => { w with f := 0#8 }
  orF (r > a) fCY
  orF (r &&& 0xf#8 > a &&& 0xf#8) fAC
  flagZsp r
  return r

def sbb (val : Byte) : CpuM δ Byte := do
  let a := (← get).a
  let r := a - val - ((← get).f &&& fCY)
  let c := (← get).f &&& fCY
  modify fun w => { w with f := 0#8 }
  orF ((r.toNat : Int) > a.toNat - c.toNat) fCY
  orF (((r &&& 0xf#8).toNat : Int) > (a &&& 0xf#8).toNat - c.toNat) fAC
  flagZsp r
  return r

def ana (val : Byte) : CpuM δ Byte := do
  let r := (← get).a &&& val
  modify fun w => { w with f := 0#8 }
  modify fun w => { w with f := w.f ||| fAC }
  flagZsp r
  return r

def xra (val : Byte) : CpuM δ Byte := do
  let r := (← get).a ^^^ val
  modify fun w => { w with f := 0#8 }
  flagZsp r
  return r

def ora (val : Byte) : CpuM δ Byte := do
  let r := (← get).a ||| val
  modify fun w => { w with f := 0#8 }
  flagZsp r
  return r

/-- `case 0x27`, the low digit, in A by itself. -/
def daaLow : CpuM δ Unit := do
  if (← get).a > 9#8 ∨ 0#8 ≠ (← get).f &&& fAC then
    modify fun w => { w with a := w.a + 6#8 }
    modify fun w => { w with f := w.f ||| fAC }
  else
    modify fun w => { w with f := w.f &&& ~~~fAC }

/-- `case 0x27`, the high digit: it is tested before the low digit's
correction has carried into it. -/
def daaHigh (work8 : Byte) : CpuM δ Byte := do
  if work8 > 9#8 ∨ 0#8 ≠ (← get).f &&& fCY then
    modify fun w => { w with f := w.f ||| fCY }
    return work8 + 6#8
  else
    modify fun w => { w with f := w.f &&& ~~~fCY }
    return work8

/-- `case 0x27`. -/
def daa : CpuM δ Unit := do
  let work8 := (← get).a >>> 4
  modify fun w => { w with a := w.a &&& 0x0f#8 }
  daaLow
  let work8 ← daaHigh work8
  modify fun w => { w with a := work8 <<< 4 + w.a }
  modify fun w => { w with f := w.f &&& ~~~(fZ ||| fS ||| fP) }
  flagZsp (← get).a

/-! ## Stack and jumps -/

def ret : CpuM δ Unit := do
  let pcl ← loadSp
  let pch ← loadSp
  modify fun w => { w with pc := word pch pcl }

def jmp : CpuM δ Unit := do
  let pcl ← loadPc
  let pch ← loadPc
  modify fun w => { w with pc := word pch pcl }

def call : CpuM δ Unit := do
  let pcl ← loadPc
  let pch ← loadPc
  storeSp (hiByte (← get).pc)
  storeSp (loByte (← get).pc)
  modify fun w => { w with pc := word pch pcl }

def rst (addr : Word) : CpuM δ Unit := do
  storeSp (hiByte (← get).pc)
  storeSp (loByte (← get).pc)
  modify fun w => { w with pc := addr }

/-- `cpu_8080_reset`. -/
def reset : CpuM δ Unit :=
  modify fun w =>
    { w with
      a := 0, f := 0, b := 0, c := 0, d := 0, e := 0, h := 0, l := 0
      sp := 0xffff#16, pc := 0 }

/-- A work area just reset, over a given memory. -/
def Work.cold (mem : Mem) : Work Unit where
  a := 0
  f := 0
  b := 0
  c := 0
  d := 0
  e := 0
  h := 0
  l := 0
  pc := 0
  sp := 0xffff#16
  op := 0
  mem := mem
  dev := ()
  calls := []

/-! ## The switch -/

/-- An arm that ends in `break`: the step returns 0. -/
def brk (arm : CpuM δ Unit) : CpuM δ Int := do
  arm
  return 0

/-- The body of the switch in `cpu_8080_step`. -/
def switch (ports : Ports δ) (op : Byte) : CpuM δ Int :=
  match op with
  | 0x00 => brk (pure ())  -- NOP
  | 0x01 => brk do  -- LXI B
      let v ← loadPc
      modify fun w => { w with c := v }
      let v ← loadPc
      modify fun w => { w with b := v }
  | 0x02 => brk do store8 (← get).bc (← get).a  -- STAX B
  | 0x03 => brk do  -- INX B
      let work16 := (← get).bc
      let work16 := work16 + 1
      modify fun w => { w with b := hiByte work16 }
      modify fun w => { w with c := loByte work16 }
  | 0x04 => brk do  -- INR B
      let v ← inr (← get).b
      modify fun w => { w with b := v }
  | 0x05 => brk do  -- DCR B
      let v ← dcr (← get).b
      modify fun w => { w with b := v }
  | 0x06 => brk do  -- MVI B
      let v ← loadPc
      modify fun w => { w with b := v }
  | 0x07 => brk do  -- RLC
      let work8 := (← get).a >>> 7
      modify fun w => { w with f := w.f &&& ~~~fCY }
      modify fun w => { w with f := w.f ||| work8 }
      modify fun w => { w with a := w.a <<< 1 ||| work8 }
  | 0x09 => brk do dad (← get).bc  -- DAD B
  | 0x0a => brk do  -- LDAX B
      let v ← load8 (← get).bc
      modify fun w => { w with a := v }
  | 0x0b => brk do  -- DCX B
      let work16 := (← get).bc
      let work16 := work16 - 1
      modify fun w => { w with b := hiByte work16 }
      modify fun w => { w with c := loByte work16 }
  | 0x0c => brk do  -- INR C
      let v ← inr (← get).c
      modify fun w => { w with c := v }
  | 0x0d => brk do  -- DCR C
      let v ← dcr (← get).c
      modify fun w => { w with c := v }
  | 0x0e => brk do  -- MVI C
      let v ← loadPc
      modify fun w => { w with c := v }
  | 0x0f => brk do  -- RRC
      let work8 := (← get).a &&& 0x01#8
      modify fun w => { w with f := w.f &&& ~~~fCY }
      modify fun w => { w with f := w.f ||| work8 }
      modify fun w => { w with a := work8 <<< 7 ||| w.a >>> 1 }
  | 0x11 => brk do  -- LXI D
      let v ← loadPc
      modify fun w => { w with e := v }
      let v ← loadPc
      modify fun w => { w with d := v }
  | 0x12 => brk do store8 (← get).de (← get).a  -- STAX D
  | 0x13 => brk do  -- INX D
      let work16 := (← get).de
      let work16 := work16 + 1
      modify fun w => { w with d := hiByte work16 }
      modify fun w => { w with e := loByte work16 }
  | 0x14 => brk do  -- INR D
      let v ← inr (← get).d
      modify fun w => { w with d := v }
  | 0x15 => brk do  -- DCR D
      let v ← dcr (← get).d
      modify fun w => { w with d := v }
  | 0x16 => brk do  -- MVI D
      let v ← loadPc
      modify fun w => { w with d := v }
  | 0x17 => brk do  -- RAL
      let work8 := (← get).f &&& fCY
      modify fun w => { w with f := w.f &&& ~~~fCY }
      modify fun w => { w with f := w.f ||| w.a >>> 7 }
      modify fun w => { w with a := w.a <<< 1 ||| work8 }
  | 0x19 => brk do dad (← get).de  -- DAD D
  | 0x1a => brk do  -- LDAX D
      let v ← load8 (← get).de
      modify fun w => { w with a := v }
  | 0x1b => brk do  -- DCX D
      let work16 := (← get).de
      let work16 := work16 - 1
      modify fun w => { w with d := hiByte work16 }
      modify fun w => { w with e := loByte work16 }
  | 0x1c => brk do  -- INR E
      let v ← inr (← get).e
      modify fun w => { w with e := v }
  | 0x1d => brk do  -- DCR E
      let v ← dcr (← get).e
      modify fun w => { w with e := v }
  | 0x1e => brk do  -- MVI E
      let v ← loadPc
      modify fun w => { w with e := v }
  | 0x1f => brk do  -- RAR
      let work8 := (← get).f &&& fCY
      modify fun w => { w with f := w.f &&& ~~~fCY }
      modify fun w => { w with f := w.f ||| (w.a &&& fCY) }
      modify fun w => { w with a := work8 <<< 7 ||| w.a >>> 1 }
  | 0x21 => brk do  -- LXI H
      let v ← loadPc
      modify fun w => { w with l := v }
      let v ← loadPc
      modify fun w => { w with h := v }
  | 0x22 => brk do  -- SHLD
      let lo ← loadPc
      let hi ← loadPc
      let work16 := word hi lo
      store8 work16 (← get).l
      let work16 := work16 + 1
      store8 work16 (← get).h
  | 0x23 => brk do  -- INX H
      let work16 := (← get).hl
      let work16 := work16 + 1
      modify fun w => { w with h := hiByte work16 }
      modify fun w => { w with l := loByte work16 }
  | 0x24 => brk do  -- INR H
      let v ← inr (← get).h
      modify fun w => { w with h := v }
  | 0x25 => brk do  -- DCR H
      let v ← dcr (← get).h
      modify fun w => { w with h := v }
  | 0x26 => brk do  -- MVI H
      let v ← loadPc
      modify fun w => { w with h := v }
  | 0x27 => brk daa  -- DAA
  | 0x29 => brk do dad (← get).hl  -- DAD H
  | 0x2a => brk do  -- LHLD
      let lo ← loadPc
      let hi ← loadPc
      let work16 := word hi lo
      let v ← load8 work16
      modify fun w => { w with l := v }
      let work16 := work16 + 1
      let v ← load8 work16
      modify fun w => { w with h := v }
  | 0x2b => brk do  -- DCX H
      let work16 := (← get).hl
      let work16 := work16 - 1
      modify fun w => { w with h := hiByte work16 }
      modify fun w => { w with l := loByte work16 }
  | 0x2c => brk do  -- INR L
      let v ← inr (← get).l
      modify fun w => { w with l := v }
  | 0x2d => brk do  -- DCR L
      let v ← dcr (← get).l
      modify fun w => { w with l := v }
  | 0x2e => brk do  -- MVI L
      let v ← loadPc
      modify fun w => { w with l := v }
  | 0x2f => brk (modify fun w => { w with a := ~~~w.a })  -- CMA
  | 0x31 => brk do  -- LXI SP
      let work8 ← loadPc
      let hi ← loadPc
      modify fun w => { w with sp := word hi work8 }
  | 0x32 => brk do  -- STA
      let work8 ← loadPc
      let hi ← loadPc
      let work16 := word hi work8
      store8 work16 (← get).a
  | 0x33 => brk (modify fun w => { w with sp := w.sp + 1 })  -- INX SP
  | 0x34 => brk do  -- INR M
      let work16 := (← get).hl
      let work8 ← load8 work16
      let work8 ← inr work8
      store8 work16 work8
  | 0x35 => brk do  -- DCR M
      let work16 := (← get).hl
      let work8 ← load8 work16
      let work8 ← dcr work8
      store8 work16 work8
  | 0x36 => brk do  -- MVI M
      let work8 ← loadPc
      store8 (← get).hl work8
  | 0x37 => brk (modify fun w => { w with f := w.f ||| fCY })  -- STC
  | 0x39 => brk do dad (← get).sp  -- DAD SP
  | 0x3a => brk do  -- LDA
      let work8 ← loadPc
      let hi ← loadPc
      let work16 := word hi work8
      let v ← load8 work16
      modify fun w => { w with a := v }
  | 0x3b => brk (modify fun w => { w with sp := w.sp - 1 })  -- DCX SP
  | 0x3c => brk do  -- INR A
      let v ← inr (← get).a
      modify fun w => { w with a := v }
  | 0x3d => brk do  -- DCR A
      let v ← dcr (← get).a
      modify fun w => { w with a := v }
  | 0x3e => brk do  -- MVI A
      let v ← loadPc
      modify fun w => { w with a := v }
  | 0x3f => brk (modify fun w => { w with f := w.f ^^^ fCY })  -- CMC
  | 0x40 => brk (pure ())  -- MOV B, B
  | 0x41 => brk (modify fun w => { w with b := w.c })  -- MOV B, C
  | 0x42 => brk (modify fun w => { w with b := w.d })  -- MOV B, D
  | 0x43 => brk (modify fun w => { w with b := w.e })  -- MOV B, E
  | 0x44 => brk (modify fun w => { w with b := w.h })  -- MOV B, H
  | 0x45 => brk (modify fun w => { w with b := w.l })  -- MOV B, L
  | 0x46 => brk do  -- MOV B, M
      let v ← load8 (← get).hl
      modify fun w => { w with b := v }
  | 0x47 => brk (modify fun w => { w with b := w.a })  -- MOV B, A
  | 0x48 => brk (modify fun w => { w with c := w.b })  -- MOV C, B
  | 0x49 => brk (pure ())  -- MOV C, C
  | 0x4a => brk (modify fun w => { w with c := w.d })  -- MOV C, D
  | 0x4b => brk (modify fun w => { w with c := w.e })  -- MOV C, E
  | 0x4c => brk (modify fun w => { w with c := w.h })  -- MOV C, H
  | 0x4d => brk (modify fun w => { w with c := w.l })  -- MOV C, L
  | 0x4e => brk do  -- MOV C, M
      let v ← load8 (← get).hl
      modify fun w => { w with c := v }
  | 0x4f => brk (modify fun w => { w with c := w.a })  -- MOV C, A
  | 0x50 => brk (modify fun w => { w with d := w.b })  -- MOV D, B
  | 0x51 => brk (modify fun w => { w with d := w.c })  -- MOV D, C
  | 0x52 => brk (pure ())  -- MOV D, D
  | 0x53 => brk (modify fun w => { w with d := w.e })  -- MOV D, E
  | 0x54 => brk (modify fun w => { w with d := w.h })  -- MOV D, H
  | 0x55 => brk (modify fun w => { w with d := w.l })  -- MOV D, L
  | 0x56 => brk do  -- MOV D, M
      let v ← load8 (← get).hl
      modify fun w => { w with d := v }
  | 0x57 => brk (modify fun w => { w with d := w.a })  -- MOV D, A
  | 0x58 => brk (modify fun w => { w with e := w.b })  -- MOV E, B
  | 0x59 => brk (modify fun w => { w with e := w.c })  -- MOV E, C
  | 0x5a => brk (modify fun w => { w with e := w.d })  -- MOV E, D
  | 0x5b => brk (pure ())  -- MOV E, E
  | 0x5c => brk (modify fun w => { w with e := w.h })  -- MOV E, H
  | 0x5d => brk (modify fun w => { w with e := w.l })  -- MOV E, L
  | 0x5e => brk do  -- MOV E, M
      let v ← load8 (← get).hl
      modify fun w => { w with e := v }
  | 0x5f => brk (modify fun w => { w with e := w.a })  -- MOV E, A
  | 0x60 => brk (modify fun w => { w with h := w.b })  -- MOV H, B
  | 0x61 => brk (modify fun w => { w with h := w.c })  -- MOV H, C
  | 0x62 => brk (modify fun w => { w with h := w.d })  -- MOV H, D
  | 0x63 => brk (modify fun w => { w with h := w.e })  -- MOV H, E
  | 0x64 => brk (pure ())  -- MOV H, H
  | 0x65 => brk (modify fun w => { w with h := w.l })  -- MOV H, L
  | 0x66 => brk do  -- MOV H, M
      let v ← load8 (← get).hl
      modify fun w => { w with h := v }
  | 0x67 => brk (modify fun w => { w with h := w.a })  -- MOV H, A
  | 0x68 => brk (modify fun w => { w with l := w.b })  -- MOV L, B
  | 0x69 => brk (modify fun w => { w with l := w.c })  -- MOV L, C
  | 0x6a => brk (modify fun w => { w with l := w.d })  -- MOV L, D
  | 0x6b => brk (modify fun w => { w with l := w.e })  -- MOV L, E
  | 0x6c => brk (modify fun w => { w with l := w.h })  -- MOV L, H
  | 0x6d => brk (pure ())  -- MOV L, L
  | 0x6e => brk do  -- MOV L, M
      let v ← load8 (← get).hl
      modify fun w => { w with l := v }
  | 0x6f => brk (modify fun w => { w with l := w.a })  -- MOV L, A
  | 0x70 => brk do store8 (← get).hl (← get).b  -- MOV M, B
  | 0x71 => brk do store8 (← get).hl (← get).c  -- MOV M, C
  | 0x72 => brk do store8 (← get).hl (← get).d  -- MOV M, D
  | 0x73 => brk do store8 (← get).hl (← get).e  -- MOV M, E
  | 0x74 => brk do store8 (← get).hl (← get).h  -- MOV M, H
  | 0x75 => brk do store8 (← get).hl (← get).l  -- MOV M, L
  | 0x76 => return 1  -- HALT
  | 0x77 => brk do store8 (← get).hl (← get).a  -- MOV M, A
  | 0x78 => brk (modify fun w => { w with a := w.b })  -- MOV A, B
  | 0x79 => brk (modify fun w => { w with a := w.c })  -- MOV A, C
  | 0x7a => brk (modify fun w => { w with a := w.d })  -- MOV A, D
  | 0x7b => brk (modify fun w => { w with a := w.e })  -- MOV A, E
  | 0x7c => brk (modify fun w => { w with a := w.h })  -- MOV A, H
  | 0x7d => brk (modify fun w => { w with a := w.l })  -- MOV A, L
  | 0x7e => brk do  -- MOV A, M
      let v ← load8 (← get).hl
      modify fun w => { w with a := v }
  | 0x7f => brk (pure ())  -- MOV A, A
  | 0x80 => brk do  -- ADD B
      let v ← add (← get).b
      modify fun w => { w with a := v }
  | 0x81 => brk do  -- ADD C
      let v ← add (← get).c
      modify fun w => { w with a := v }
  | 0x82 => brk do  -- ADD D
      let v ← add (← get).d
      modify fun w => { w with a := v }
  | 0x83 => brk do  -- ADD E
      let v ← add (← get).e
      modify fun w => { w with a := v }
  | 0x84 => brk do  -- ADD H
      let v ← add (← get).h
      modify fun w => { w with a := v }
  | 0x85 => brk do  -- ADD L
      let v ← add (← get).l
      modify fun w => { w with a := v }
  | 0x86 => brk do  -- ADD M
      let work8 ← load8 (← get).hl
      let v ← add work8
      modify fun w => { w with a := v }
  | 0x87 => brk do  -- ADD A
      let v ← add (← get).a
      modify fun w => { w with a := v }
  | 0x88 => brk do  -- ADC B
      let v ← adc (← get).b
      modify fun w => { w with a := v }
  | 0x89 => brk do  -- ADC C
      let v ← adc (← get).c
      modify fun w => { w with a := v }
  | 0x8a => brk do  -- ADC D
      let v ← adc (← get).d
      modify fun w => { w with a := v }
  | 0x8b => brk do  -- ADC E
      let v ← adc (← get).e
      modify fun w => { w with a := v }
  | 0x8c => brk do  -- ADC H
      let v ← adc (← get).h
      modify fun w => { w with a := v }
  | 0x8d => brk do  -- ADC L
      let v ← adc (← get).l
      modify fun w => { w with a := v }
  | 0x8e => brk do  -- ADC M
      let work8 ← load8 (← get).hl
      let v ← adc work8
      modify fun w => { w with a := v }
  | 0x8f => brk do  -- ADC A
      let v ← adc (← get).a
      modify fun w => { w with a := v }
  | 0x90 => brk do  -- SUB B
      let v ← sub (← get).b
      modify fun w => { w with a := v }
  | 0x91 => brk do  -- SUB C
      let v ← sub (← get).c
      modify fun w => { w with a := v }
  | 0x92 => brk do  -- SUB D
      let v ← sub (← get).d
      modify fun w => { w with a := v }
  | 0x93 => brk do  -- SUB E
      let v ← sub (← get).e
      modify fun w => { w with a := v }
  | 0x94 => brk do  -- SUB H
      let v ← sub (← get).h
      modify fun w => { w with a := v }
  | 0x95 => brk do  -- SUB L
      let v ← sub (← get).l
      modify fun w => { w with a := v }
  | 0x96 => brk do  -- SUB M
      let work8 ← load8 (← get).hl
      let v ← sub work8
      modify fun w => { w with a := v }
  | 0x97 => brk do  -- SUB A
      let v ← sub (← get).a
      modify fun w => { w with a := v }
  | 0x98 => brk do  -- SBB B
      let v ← sbb (← get).b
      modify fun w => { w with a := v }
  | 0x99 => brk do  -- SBB C
      let v ← sbb (← get).c
      modify fun w => { w with a := v }
  | 0x9a => brk do  -- SBB D
      let v ← sbb (← get).d
      modify fun w => { w with a := v }
  | 0x9b => brk do  -- SBB E
      let v ← sbb (← get).e
      modify fun w => { w with a := v }
  | 0x9c => brk do  -- SBB H
      let v ← sbb (← get).h
      modify fun w => { w with a := v }
  | 0x9d => brk do  -- SBB L
      let v ← sbb (← get).l
      modify fun w => { w with a := v }
  | 0x9e => brk do  -- SBB M
      let work8 ← load8 (← get).hl
      let v ← sbb work8
      modify fun w => { w with a := v }
  | 0x9f => brk do  -- SBB A
      let v ← sbb (← get).a
      modify fun w => { w with a := v }
  | 0xa0 => brk do  -- ANA B
      let v ← ana (← get).b
      modify fun w => { w with a := v }
  | 0xa1 => brk do  -- ANA C
      let v ← ana (← get).c
      modify fun w => { w with a := v }
  | 0xa2 => brk do  -- ANA D
      let v ← ana (← get).d
      modify fun w => { w with a := v }
  | 0xa3 => brk do  -- ANA E
      let v ← ana (← get).e
      modify fun w => { w with a := v }
  | 0xa4 => brk do  -- ANA H
      let v ← ana (← get).h
      modify fun w => { w with a := v }
  | 0xa5 => brk do  -- ANA L
      let v ← ana (← get).l
      modify fun w => { w with a := v }
  | 0xa6 => brk do  -- ANA M
      let work8 ← load8 (← get).hl
      let v ← ana work8
      modify fun w => { w with a := v }
  | 0xa7 => brk do  -- ANA A
      let v ← ana (← get).a
      modify fun w => { w with a := v }
  | 0xa8 => brk do  -- XRA B
      let v ← xra (← get).b
      modify fun w => { w with a := v }
  | 0xa9 => brk do  -- XRA C
      let v ← xra (← get).c
      modify fun w => { w with a := v }
  | 0xaa => brk do  -- XRA D
      let v ← xra (← get).d
      modify fun w => { w with a := v }
  | 0xab => brk do  -- XRA E
      let v ← xra (← get).e
      modify fun w => { w with a := v }
  | 0xac => brk do  -- XRA H
      let v ← xra (← get).h
      modify fun w => { w with a := v }
  | 0xad => brk do  -- XRA L
      let v ← xra (← get).l
      modify fun w => { w with a := v }
  | 0xae => brk do  -- XRA M
      let work8 ← load8 (← get).hl
      let v ← xra work8
      modify fun w => { w with a := v }
  | 0xaf => brk do  -- XRA A
      let v ← xra (← get).a
      modify fun w => { w with a := v }
  | 0xb0 => brk do  -- ORA B
      let v ← ora (← get).b
      modify fun w => { w with a := v }
  | 0xb1 => brk do  -- ORA C
      let v ← ora (← get).c
      modify fun w => { w with a := v }
  | 0xb2 => brk do  -- ORA D
      let v ← ora (← get).d
      modify fun w => { w with a := v }
  | 0xb3 => brk do  -- ORA E
      let v ← ora (← get).e
      modify fun w => { w with a := v }
  | 0xb4 => brk do  -- ORA H
      let v ← ora (← get).h
      modify fun w => { w with a := v }
  | 0xb5 => brk do  -- ORA L
      let v ← ora (← get).l
      modify fun w => { w with a := v }
  | 0xb6 => brk do  -- ORA M
      let work8 ← load8 (← get).hl
      let v ← ora work8
      modify fun w => { w with a := v }
  | 0xb7 => brk do  -- ORA A
      let v ← ora (← get).a
      modify fun w => { w with a := v }
  | 0xb8 => brk do discard (sub (← get).b)  -- CMP B
  | 0xb9 => brk do discard (sub (← get).c)  -- CMP C
  | 0xba => brk do discard (sub (← get).d)  -- CMP D
  | 0xbb => brk do discard (sub (← get).e)  -- CMP E
  | 0xbc => brk do discard (sub (← get).h)  -- CMP H
  | 0xbd => brk do discard (sub (← get).l)  -- CMP L
  | 0xbe => brk do  -- CMP M
      let work8 ← load8 (← get).hl
      discard (sub work8)
  | 0xbf => brk do discard (sub (← get).a)  -- CMP A
  | 0xc0 => brk do if (← get).f &&& fZ = 0#8 then ret  -- RNZ
  | 0xc1 => brk do  -- POP B
      let v ← loadSp
      modify fun w => { w with c := v }
      let v ← loadSp
      modify fun w => { w with b := v }
  | 0xc2 => brk do  -- JNZ
      if (← get).f &&& fZ = 0#8 then jmp
      else modify fun w => { w with pc := w.pc + 2 }
  | 0xc3 => brk jmp  -- JMP
  | 0xc4 => brk do  -- CNZ
      if (← get).f &&& fZ = 0#8 then call
      else modify fun w => { w with pc := w.pc + 2 }
  | 0xc5 => brk do  -- PUSH B
      storeSp (← get).b
      storeSp (← get).c
  | 0xc6 => brk do  -- ADI
      let work8 ← loadPc
      let v ← add work8
      modify fun w => { w with a := v }
  | 0xc7 => brk (rst 0x0000#16)  -- RST 00H
  | 0xc8 => brk do if (← get).f &&& fZ ≠ 0#8 then ret  -- RZ
  | 0xc9 => brk ret  -- RET
  | 0xca => brk do  -- JZ
      if (← get).f &&& fZ ≠ 0#8 then jmp
      else modify fun w => { w with pc := w.pc + 2 }
  | 0xcc => brk do  -- CZ
      if (← get).f &&& fZ ≠ 0#8 then call
      else modify fun w => { w with pc := w.pc + 2 }
  | 0xcd => brk call  -- CALL
  | 0xce => brk do  -- ACI
      let work8 ← loadPc
      let v ← adc work8
      modify fun w => { w with a := v }
  | 0xcf => brk (rst 0x0008#16)  -- RST 08H
  | 0xd0 => brk do if (← get).f &&& fCY = 0#8 then ret  -- RNC
  | 0xd1 => brk do  -- POP D
      let v ← loadSp
      modify fun w => { w with e := v }
      let v ← loadSp
      modify fun w => { w with d := v }
  | 0xd2 => brk do  -- JNC
      if (← get).f &&& fCY = 0#8 then jmp
      else modify fun w => { w with pc := w.pc + 2 }
  | 0xd3 => brk do  -- OUT
      let work8 ← loadPc
      out ports work8 (← get).a
  | 0xd4 => brk do  -- CNC
      if (← get).f &&& fCY = 0#8 then call
      else modify fun w => { w with pc := w.pc + 2 }
  | 0xd5 => brk do  -- PUSH D
      storeSp (← get).d
      storeSp (← get).e
  | 0xd6 => brk do  -- SUI
      let work8 ← loadPc
      let v ← sub work8
      modify fun w => { w with a := v }
  | 0xd7 => brk (rst 0x0010#16)  -- RST 10H
  | 0xd8 => brk do if (← get).f &&& fCY ≠ 0#8 then ret  -- RC
  | 0xda => brk do  -- JC
      if (← get).f &&& fCY ≠ 0#8 then jmp
      else modify fun w => { w with pc := w.pc + 2 }
  | 0xdb => brk do  -- IN
      let work8 ← loadPc
      let v ← input ports work8
      modify fun w => { w with a := v }
  | 0xdc => brk do  -- CC
      if (← get).f &&& fCY ≠ 0#8 then call
      else modify fun w => { w with pc := w.pc + 2 }
  | 0xde => brk do  -- SBI
      let work8 ← loadPc
      let v ← sbb work8
      modify fun w => { w with a := v }
  | 0xdf => brk (rst 0x0018#16)  -- RST 18H
  | 0xe0 => brk do if (← get).f &&& fP = 0#8 then ret  -- RPO
  | 0xe1 => brk do  -- POP H
      let v ← loadSp
      modify fun w => { w with l := v }
      let v ← loadSp
      modify fun w => { w with h := v }
  | 0xe2 => brk do  -- JPO
      if (← get).f &&& fP = 0#8 then jmp
      else modify fun w => { w with pc := w.pc + 2 }
  | 0xe3 => brk do  -- XTHL
      let work8 ← load8 (← get).sp
      store8 (← get).sp (← get).l
      modify fun w => { w with l := work8 }
      let work8 ← load8 ((← get).sp + 1)
      store8 ((← get).sp + 1) (← get).h
      modify fun w => { w with h := work8 }
  | 0xe4 => brk do  -- CPO
      if (← get).f &&& fP = 0#8 then call
      else modify fun w => { w with pc := w.pc + 2 }
  | 0xe5 => brk do  -- PUSH H
      storeSp (← get).h
      storeSp (← get).l
  | 0xe6 => brk do  -- ANI
      let work8 ← loadPc
      let v ← ana work8
      modify fun w => { w with a := v }
  | 0xe7 => brk (rst 0x0020#16)  -- RST 20H
  | 0xe8 => brk do if (← get).f &&& fP ≠ 0#8 then ret  -- RPE
  | 0xe9 => brk (modify fun w => { w with pc := w.hl })  -- PCHL
  | 0xea => brk do  -- JPE
      if (← get).f &&& fP ≠ 0#8 then jmp
      else modify fun w => { w with pc := w.pc + 2 }
  | 0xeb => brk do  -- XCHG
      let work16 := (← get).hl
      modify fun w => { w with h := w.d }
      modify fun w => { w with l := w.e }
      modify fun w => { w with d := hiByte work16 }
      modify fun w => { w with e := loByte work16 }
  | 0xec => brk do  -- CPE
      if (← get).f &&& fP ≠ 0#8 then call
      else modify fun w => { w with pc := w.pc + 2 }
  | 0xee => brk do  -- XRI
      let work8 ← loadPc
      let v ← xra work8
      modify fun w => { w with a := v }
  | 0xef => brk (rst 0x0028#16)  -- RST 28H
  | 0xf0 => brk do if (← get).f &&& fS = 0#8 then ret  -- RP
  | 0xf1 => brk do  -- POP PSW
      let v ← loadSp
      modify fun w => { w with f := v }
      let v ← loadSp
      modify fun w => { w with a := v }
  | 0xf2 => brk do  -- JP
      if (← get).f &&& fS = 0#8 then jmp
      else modify fun w => { w with pc := w.pc + 2 }
  | 0xf3 => brk (pure ())  -- DI
  | 0xf4 => brk do  -- CP
      if (← get).f &&& fS = 0#8 then call
      else modify fun w => { w with pc := w.pc + 2 }
  | 0xf5 => brk do  -- PUSH PSW
      storeSp (← get).a
      storeSp ((← get).f ||| 0x02#8)
  | 0xf6 => brk do  -- ORI
      let work8 ← loadPc
      let v ← ora work8
      modify fun w => { w with a := v }
  | 0xf7 => brk (rst 0x0030#16)  -- RST 30H
  | 0xf8 => brk do if (← get).f &&& fS ≠ 0#8 then ret  -- RM
  | 0xf9 => brk (modify fun w => { w with sp := w.hl })  -- SPHL
  | 0xfa => brk do  -- JM
      if (← get).f &&& fS ≠ 0#8 then jmp
      else modify fun w => { w with pc := w.pc + 2 }
  | 0xfb => brk (pure ())  -- EI
  | 0xfc => brk do  -- CM
      if (← get).f &&& fS ≠ 0#8 then call
      else modify fun w => { w with pc := w.pc + 2 }
  | 0xfe => brk do  -- CPI
      let work8 ← loadPc
      discard (sub work8)
  | 0xff => brk (rst 0x0038#16)  -- RST 38H
  | _ => return -256 + op.toNat  -- Illegal Op.

/-- `cpu_8080_step`: non-zero when the run is over. -/
def step (ports : Ports δ) : CpuM δ Int := do
  let op ← loadPc
  modify fun w => { w with op := op }
  switch ports op

end Cpu8080

end CpMega88
