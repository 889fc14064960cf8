import CpMega88.Isa
import CpMega88.Lib.Avr

/-!
# The assembly core

`i8080.S` routine by routine: the memory macros and their six
subroutines, the instruction fetch, the shared tails from `adc_comp` to
`par_set`, the handlers, and the jump table at `decode`. A handler that
the source writes once per register is one definition applied to the
registers; a tail jump is a call in last position, and a label two
routines fall into is one routine.

The 8080's registers live in AVR registers (`regA`, …). What lies
outside the file is `Bus` (the static RAM, the devices behind `in` and
`out`, the log of their calls) and `Env` (those two functions, what they
leave in the registers they may change, and two constants of the build).
-/

namespace CpMega88

open Bytes Avr

namespace I8080

structure Bus (δ : Type) where
  mem : Mem
  dev : δ
  calls : List PortCall

structure Env (δ : Type) where
  ports : Ports δ
  /-- What a C function leaves in the registers it may change. -/
  junk : Avr.State (Bus δ) → (Fin 32 → Byte) × Sreg
  /-- `IO`: the idle state of the control port. -/
  io : Byte
  /-- `pm(decode)`: where the linker puts the jump table. -/
  decodeAt : Word

/-- Nothing attached; a C function leaves its registers alone. -/
def Env.idle : Env Unit where
  ports := .idle
  junk := fun s => (s.r, s.sreg)
  io := 0
  decodeAt := 0

/-- Where a handler leaves to: back to `fetch_next`, or out of `fetch`. -/
inductive Exit where
  | fetchNext
  | ret
deriving DecidableEq

variable {δ : Type}

abbrev AsmM (δ : Type) := AvrM (Bus δ)

abbrev regA : Fin 32 := ⟨17, by decide⟩
abbrev regF : Fin 32 := ⟨16, by decide⟩
abbrev regB : Fin 32 := ⟨15, by decide⟩
abbrev regC : Fin 32 := ⟨14, by decide⟩
abbrev regD : Fin 32 := ⟨13, by decide⟩
abbrev regE : Fin 32 := ⟨12, by decide⟩
abbrev regH : Fin 32 := ⟨11, by decide⟩
abbrev regL : Fin 32 := ⟨10, by decide⟩
abbrev regPcH : Fin 32 := ⟨25, by decide⟩
abbrev regPcL : Fin 32 := ⟨24, by decide⟩
abbrev regSpH : Fin 32 := ⟨27, by decide⟩
abbrev regSpL : Fin 32 := ⟨26, by decide⟩
abbrev regMemH : Fin 32 := ⟨9, by decide⟩
abbrev regMemL : Fin 32 := ⟨8, by decide⟩
abbrev regMemR : Fin 32 := ⟨7, by decide⟩
abbrev regTmp1 : Fin 32 := ⟨18, by decide⟩
abbrev regTmp2 : Fin 32 := ⟨19, by decide⟩

/-- Zero by convention. -/
abbrev r1 : Fin 32 := ⟨1, by decide⟩
abbrev r22 : Fin 32 := ⟨22, by decide⟩
abbrev r24 : Fin 32 := ⟨24, by decide⟩
abbrev r30 : Fin 32 := ⟨30, by decide⟩
abbrev r31 : Fin 32 := ⟨31, by decide⟩

/-- The registers just loaded from a work area that `i8080_reset` has
cleared, over a given memory. -/
def cold (mem : Mem) : Avr.State (Bus Unit) where
  r := fun i => if i = regSpH ∨ i = regSpL then 0xff else 0
  sreg := Sreg.ofByte 0
  stack := []
  bus := ⟨mem, (), []⟩

def fCY : Byte := 0x01#8
def fP : Byte := 0x04#8
def fAC : Byte := 0x10#8
def fZ : Byte := 0x40#8
def fS : Byte := 0x80#8

abbrev bCY : Nat := 0
abbrev bP : Nat := 2
abbrev bAC : Nat := 4
abbrev bZ : Nat := 6
abbrev bS : Nat := 7

def fetchNext : AsmM δ Exit := return .fetchNext

def ret : AsmM δ Exit := return .ret

variable (env : Env δ)

/-! ## Memory -/

/-- `_sram_read`: `work` ends as `DATA_OUT`. -/
def sramRead (adrL adrH dst work : Fin 32) : AsmM δ Unit := modify fun s =>
  (s.set dst (s.bus.mem (word (s.r adrH) (s.r adrL)))).set work 0xff#8

/-- `_sram_write`: `work` ends as `IO`. -/
def sramWrite (adrL adrH data work : Fin 32) : AsmM δ Unit := modify fun s =>
  { s.set work env.io with
    bus.mem := Function.update s.bus.mem (word (s.r adrH) (s.r adrL)) (s.r data) }

def load : AsmM δ Unit := sramRead regMemL regMemH regMemR regTmp1

def loadHl : AsmM δ Unit := sramRead regL regH regMemR regTmp1

def loadSp : AsmM δ Unit := sramRead regSpL regSpH regMemR regTmp1

def store : AsmM δ Unit := sramWrite env regMemL regMemH regMemR regTmp1

def storeHl : AsmM δ Unit := sramWrite env regL regH regMemR regTmp1

def storeSp : AsmM δ Unit := sramWrite env regSpL regSpH regMemR regTmp1

def fetchOp : AsmM δ Unit := do
  sramRead regPcL regPcH regMemR regTmp1
  inc regPcL
  if ← flagZ then
    inc regPcH

/-! ## Devices -/

/-- `push_regs`. -/
def pushRegs : AsmM δ Unit := do
  push r24
  push regPcH
  push regSpL
  push regSpH

/-- `pop_regs`. -/
def popRegs : AsmM δ Unit := do
  pop regSpH
  pop regSpL
  pop regPcH
  pop r24

/-- `call out`. -/
def callOut : AsmM δ Unit := do
  let s ← get
  let r := env.ports.output (s.r r24) (s.r r22) s.bus.mem s.bus.dev
  callC (env.junk s) ((env.junk s).1 r24)
    { mem := r.1, dev := r.2, calls := .output (s.r r24) (s.r r22) :: s.bus.calls }

/-- `call in`. -/
def callIn : AsmM δ Unit := do
  let s ← get
  let r := env.ports.input (s.r r24) s.bus.mem s.bus.dev
  callC (env.junk s) r.1
    { mem := r.2.1, dev := r.2.2, calls := .input (s.r r24) r.1 :: s.bus.calls }

/-! ## Shared tails -/

/-- `clc`, `sbrc reg, b`, `sec`: a register bit into the carry. -/
def carryFrom (reg : Fin 32) (b : Nat) : AsmM δ Unit := do
  clc
  if ← bit reg b then
    sec

/-- A branch over SBR on the flags, not taken where `flag` holds. -/
def sbrIf (flag : AsmM δ Bool) (m : Byte) : AsmM δ Unit := do
  if ← flag then
    sbr regF m

/-- The same followed by `out SREG, tmp`, which restores the status SBR
has destroyed. -/
def sbrIfThenOut (flag : AsmM δ Bool) (m : Byte) (tmp : Fin 32) : AsmM δ Unit := do
  if ← flag then
    sbr regF m
    outSreg tmp

/-- The one bits of `tmp1`, counted into `tmp2`. -/
def parCount : AsmM δ Unit := do
  mov regTmp2 r1
  lsr regTmp1
  adc regTmp2 r1
  lsr regTmp1
  adc regTmp2 r1
  lsr regTmp1
  adc regTmp2 r1
  lsr regTmp1
  adc regTmp2 r1
  lsr regTmp1
  adc regTmp2 r1
  lsr regTmp1
  adc regTmp2 r1
  lsr regTmp1
  adc regTmp2 r1
  lsr regTmp1
  adc regTmp2 r1

def parSet : AsmM δ Exit := do
  parCount
  andi regTmp2 1#8
  sbrIf flagZ fP
  fetchNext

def flagZsp : AsmM δ Exit := do
  cp regTmp1 r1
  sbrIf flagZ fZ
  mov regTmp2 regTmp1
  andi regTmp2 fS
  or regF regTmp2
  parSet

def dcrComp : AsmM δ Exit := do
  andi regF fCY
  mov regTmp2 regTmp1
  andi regTmp2 0x0f#8
  cpi regTmp2 0x0f#8
  sbrIf flagZ fAC
  flagZsp

def inrComp : AsmM δ Exit := do
  andi regF fCY
  mov regTmp2 regTmp1
  andi regTmp2 0x0f#8
  sbrIf flagZ fAC
  flagZsp

/-- Carry, auxiliary carry, zero and sign, out of the status saved in
`tmp`. -/
def statusToF (tmp : Fin 32) : AsmM δ Unit := do
  inSreg tmp
  ldi regF 0#8
  sbrIfThenOut flagC fCY tmp
  sbrIfThenOut flagH fAC tmp
  sbrIfThenOut flagZ fZ tmp
  sbrIf flagN fS

/-- `add_comp` and `sub_comp`. -/
def addComp : AsmM δ Exit := do
  statusToF regTmp1
  mov regTmp1 regA
  parSet

def subComp : AsmM δ Exit := addComp

def adcComp : AsmM δ Exit := do
  carryFrom regF bCY
  adc regA regTmp1
  addComp

def cmpComp : AsmM δ Exit := do
  statusToF regTmp2
  parSet

/-- SEZ, since SBC only ever clears Z. -/
def sbbComp : AsmM δ Exit := do
  carryFrom regF bCY
  sez
  sbc regA regTmp1
  subComp

/-- The tail of the logical operations, from a flag byte `f`. -/
def logicComp (f : Byte) : AsmM δ Exit := do
  ldi regF f
  if ← flagZ then
    sbr regF fZ
    cp regA r1
  sbrIf flagN fS
  mov regTmp1 regA
  parSet

def anaComp : AsmM δ Exit := logicComp fAC

/-- `xra_comp` and `ora_comp`. -/
def xraComp : AsmM δ Exit := logicComp 0#8

def oraComp : AsmM δ Exit := xraComp

def pushComp : AsmM δ Exit := do
  ldi regTmp2 1#8
  sub regSpL regTmp2
  sbc regSpH r1
  storeSp env
  sub regSpL regTmp2
  sbc regSpH r1
  mov regMemR regMemL
  storeSp env
  fetchNext

def popStart : AsmM δ Unit := do
  loadSp
  mov regMemL regMemR
  ldi regTmp2 1#8
  add regSpL regTmp2
  adc regSpH r1
  loadSp
  add regSpL regTmp2
  adc regSpH r1

def rstComp : AsmM δ Exit := do
  mov regMemL regPcL
  mov regMemR regPcH
  mov regPcH r1
  mov regPcL regTmp1
  pushComp env

/-! ## Handlers -/

/-- `lxi_b_op` and its like, on a pair. -/
def lxiOp (hi lo : Fin 32) : AsmM δ Exit := do
  fetchOp
  mov lo regMemR
  fetchOp
  mov hi regMemR
  fetchNext

def lxiBOp : AsmM δ Exit := lxiOp regB regC
def lxiDOp : AsmM δ Exit := lxiOp regD regE
def lxiHOp : AsmM δ Exit := lxiOp regH regL
def lxiSpOp : AsmM δ Exit := lxiOp regSpH regSpL

def staxOp (hi lo : Fin 32) : AsmM δ Exit := do
  mov regMemL lo
  mov regMemH hi
  mov regMemR regA
  store env
  fetchNext

def staxBOp : AsmM δ Exit := staxOp env regB regC
def staxDOp : AsmM δ Exit := staxOp env regD regE

def inxOp (hi lo : Fin 32) : AsmM δ Exit := do
  ldi regTmp1 1#8
  add lo regTmp1
  adc hi r1
  fetchNext

def inxBOp : AsmM δ Exit := inxOp regB regC
def inxDOp : AsmM δ Exit := inxOp regD regE
def inxHOp : AsmM δ Exit := inxOp regH regL
def inxSpOp : AsmM δ Exit := inxOp regSpH regSpL

def dcxOp (hi lo : Fin 32) : AsmM δ Exit := do
  ldi regTmp1 1#8
  sub lo regTmp1
  sbc hi r1
  fetchNext

def dcxBOp : AsmM δ Exit := dcxOp regB regC
def dcxDOp : AsmM δ Exit := dcxOp regD regE
def dcxHOp : AsmM δ Exit := dcxOp regH regL
def dcxSpOp : AsmM δ Exit := dcxOp regSpH regSpL

def inrOp (reg : Fin 32) : AsmM δ Exit := do
  inc reg
  mov regTmp1 reg
  inrComp

def inrBOp : AsmM δ Exit := inrOp regB
def inrCOp : AsmM δ Exit := inrOp regC
def inrDOp : AsmM δ Exit := inrOp regD
def inrEOp : AsmM δ Exit := inrOp regE
def inrHOp : AsmM δ Exit := inrOp regH
def inrLOp : AsmM δ Exit := inrOp regL
def inrAOp : AsmM δ Exit := inrOp regA

def inrMOp : AsmM δ Exit := do
  loadHl
  inc regMemR
  storeHl env
  mov regTmp1 regMemR
  inrComp

def dcrOp (reg : Fin 32) : AsmM δ Exit := do
  dec reg
  mov regTmp1 reg
  dcrComp

def dcrBOp : AsmM δ Exit := dcrOp regB
def dcrCOp : AsmM δ Exit := dcrOp regC
def dcrDOp : AsmM δ Exit := dcrOp regD
def dcrEOp : AsmM δ Exit := dcrOp regE
def dcrHOp : AsmM δ Exit := dcrOp regH
def dcrLOp : AsmM δ Exit := dcrOp regL
def dcrAOp : AsmM δ Exit := dcrOp regA

def dcrMOp : AsmM δ Exit := do
  loadHl
  dec regMemR
  storeHl env
  mov regTmp1 regMemR
  dcrComp

def mviOp (reg : Fin 32) : AsmM δ Exit := do
  fetchOp
  mov reg regMemR
  fetchNext

def mviBOp : AsmM δ Exit := mviOp regB
def mviCOp : AsmM δ Exit := mviOp regC
def mviDOp : AsmM δ Exit := mviOp regD
def mviEOp : AsmM δ Exit := mviOp regE
def mviHOp : AsmM δ Exit := mviOp regH
def mviLOp : AsmM δ Exit := mviOp regL
def mviAOp : AsmM δ Exit := mviOp regA

def mviMOp : AsmM δ Exit := do
  fetchOp
  storeHl env
  fetchNext

def dadOp (hi lo : Fin 32) : AsmM δ Exit := do
  add regL lo
  adc regH hi
  cbr regF fCY
  sbrIf flagC fCY
  fetchNext

def dadBOp : AsmM δ Exit := dadOp regB regC
def dadDOp : AsmM δ Exit := dadOp regD regE
def dadHOp : AsmM δ Exit := dadOp regH regL
def dadSpOp : AsmM δ Exit := dadOp regSpH regSpL

def ldaxOp (hi lo : Fin 32) : AsmM δ Exit := do
  mov regMemL lo
  mov regMemH hi
  load
  mov regA regMemR
  fetchNext

def ldaxBOp : AsmM δ Exit := ldaxOp regB regC
def ldaxDOp : AsmM δ Exit := ldaxOp regD regE

def rlcOp : AsmM δ Exit := do
  carryFrom regA 7
  rol regA
  if ← flagC then
    sbr regF fCY
  else
    cbr regF fCY
  fetchNext

def rrcOp : AsmM δ Exit := do
  cbr regF fCY
  lsr regA
  if ← flagC then
    sbr regF fCY
    sbr regA 0x80#8
  fetchNext

def ralOp : AsmM δ Exit := do
  carryFrom regF bCY
  rol regA
  cbr regF fCY
  sbrIf flagC fCY
  fetchNext

def rarOp : AsmM δ Exit := do
  carryFrom regF bCY
  ror regA
  cbr regF fCY
  sbrIf flagC fCY
  fetchNext

/-- One correction of DAA, after a compare: made when there was no
borrow, or when bit `b` of F is set. -/
def daaCorrect (b : Nat) (k mask : Byte) : AsmM δ Unit := do
  let small ← flagC
  if !small || (← bit regF b) then
    subi regA (-k)
    sbr regF mask
  else
    cbr regF mask

/-- Both corrections are made on the whole byte: the first may wrap it
before the second compares it with A0h. -/
def daaOp : AsmM δ Exit := do
  mov regTmp1 regA
  andi regTmp1 0x0f#8
  cpi regTmp1 10#8
  daaCorrect bAC 6#8 fAC
  cpi regA 160#8
  daaCorrect bCY 96#8 fCY
  andi regF (~~~(fZ ||| fS ||| fP))
  mov regTmp1 regA
  flagZsp

def cmaOp : AsmM δ Exit := do
  com regA
  fetchNext

def stcOp : AsmM δ Exit := do
  sbr regF fCY
  fetchNext

def cmcOp : AsmM δ Exit := do
  ldi regTmp1 fCY
  eor regF regTmp1
  fetchNext

def shldOp : AsmM δ Exit := do
  fetchOp
  mov regMemL regMemR
  fetchOp
  mov regMemH regMemR
  mov regMemR regL
  store env
  ldi regTmp1 1#8
  add regMemL regTmp1
  adc regMemH r1
  mov regMemR regH
  store env
  fetchNext

def lhldOp : AsmM δ Exit := do
  fetchOp
  mov regMemL regMemR
  fetchOp
  mov regMemH regMemR
  load
  mov regL regMemR
  ldi regTmp1 1#8
  add regMemL regTmp1
  adc regMemH r1
  load
  mov regH regMemR
  fetchNext

def staOp : AsmM δ Exit := do
  fetchOp
  mov regMemL regMemR
  fetchOp
  mov regMemH regMemR
  mov regMemR regA
  store env
  fetchNext

def ldaOp : AsmM δ Exit := do
  fetchOp
  mov regMemL regMemR
  fetchOp
  mov regMemH regMemR
  load
  mov regA regMemR
  fetchNext

def movOp (dst src : Fin 32) : AsmM δ Exit := do
  mov dst src
  fetchNext

def movBcOp : AsmM δ Exit := movOp regB regC
def movBdOp : AsmM δ Exit := movOp regB regD
def movBeOp : AsmM δ Exit := movOp regB regE
def movBhOp : AsmM δ Exit := movOp regB regH
def movBlOp : AsmM δ Exit := movOp regB regL
def movBaOp : AsmM δ Exit := movOp regB regA
def movCbOp : AsmM δ Exit := movOp regC regB
def movCdOp : AsmM δ Exit := movOp regC regD
def movCeOp : AsmM δ Exit := movOp regC regE
def movChOp : AsmM δ Exit := movOp regC regH
def movClOp : AsmM δ Exit := movOp regC regL
def movCaOp : AsmM δ Exit := movOp regC regA
def movDbOp : AsmM δ Exit := movOp regD regB
def movDcOp : AsmM δ Exit := movOp regD regC
def movDeOp : AsmM δ Exit := movOp regD regE
def movDhOp : AsmM δ Exit := movOp regD regH
def movDlOp : AsmM δ Exit := movOp regD regL
def movDaOp : AsmM δ Exit := movOp regD regA
def movEbOp : AsmM δ Exit := movOp regE regB
def movEcOp : AsmM δ Exit := movOp regE regC
def movEdOp : AsmM δ Exit := movOp regE regD
def movEhOp : AsmM δ Exit := movOp regE regH
def movElOp : AsmM δ Exit := movOp regE regL
def movEaOp : AsmM δ Exit := movOp regE regA
def movHbOp : AsmM δ Exit := movOp regH regB
def movHcOp : AsmM δ Exit := movOp regH regC
def movHdOp : AsmM δ Exit := movOp regH regD
def movHeOp : AsmM δ Exit := movOp regH regE
def movHlOp : AsmM δ Exit := movOp regH regL
def movHaOp : AsmM δ Exit := movOp regH regA
def movLbOp : AsmM δ Exit := movOp regL regB
def movLcOp : AsmM δ Exit := movOp regL regC
def movLdOp : AsmM δ Exit := movOp regL regD
def movLeOp : AsmM δ Exit := movOp regL regE
def movLhOp : AsmM δ Exit := movOp regL regH
def movLaOp : AsmM δ Exit := movOp regL regA
def movAbOp : AsmM δ Exit := movOp regA regB
def movAcOp : AsmM δ Exit := movOp regA regC
def movAdOp : AsmM δ Exit := movOp regA regD
def movAeOp : AsmM δ Exit := movOp regA regE
def movAhOp : AsmM δ Exit := movOp regA regH
def movAlOp : AsmM δ Exit := movOp regA regL

def movRMOp (dst : Fin 32) : AsmM δ Exit := do
  loadHl
  mov dst regMemR
  fetchNext

def movBmOp : AsmM δ Exit := movRMOp regB
def movCmOp : AsmM δ Exit := movRMOp regC
def movDmOp : AsmM δ Exit := movRMOp regD
def movEmOp : AsmM δ Exit := movRMOp regE
def movHmOp : AsmM δ Exit := movRMOp regH
def movLmOp : AsmM δ Exit := movRMOp regL
def movAmOp : AsmM δ Exit := movRMOp regA

def movMROp (src : Fin 32) : AsmM δ Exit := do
  mov regMemR src
  storeHl env
  fetchNext

def movMbOp : AsmM δ Exit := movMROp env regB
def movMcOp : AsmM δ Exit := movMROp env regC
def movMdOp : AsmM δ Exit := movMROp env regD
def movMeOp : AsmM δ Exit := movMROp env regE
def movMhOp : AsmM δ Exit := movMROp env regH
def movMlOp : AsmM δ Exit := movMROp env regL
def movMaOp : AsmM δ Exit := movMROp env regA

def haltOp : AsmM δ Exit := do
  ldi regTmp1 1#8
  sub regPcL regTmp1
  sbc regPcH r1
  ret

def addOp (src : Fin 32) : AsmM δ Exit := do
  add regA src
  addComp

def addBOp : AsmM δ Exit := addOp regB
def addCOp : AsmM δ Exit := addOp regC
def addDOp : AsmM δ Exit := addOp regD
def addEOp : AsmM δ Exit := addOp regE
def addHOp : AsmM δ Exit := addOp regH
def addLOp : AsmM δ Exit := addOp regL
def addAOp : AsmM δ Exit := addOp regA

def addMOp : AsmM δ Exit := do
  loadHl
  add regA regMemR
  addComp

def adiOp : AsmM δ Exit := do
  fetchOp
  add regA regMemR
  addComp

def subOp (src : Fin 32) : AsmM δ Exit := do
  sub regA src
  subComp

def subBOp : AsmM δ Exit := subOp regB
def subCOp : AsmM δ Exit := subOp regC
def subDOp : AsmM δ Exit := subOp regD
def subEOp : AsmM δ Exit := subOp regE
def subHOp : AsmM δ Exit := subOp regH
def subLOp : AsmM δ Exit := subOp regL
def subAOp : AsmM δ Exit := subOp regA

def subMOp : AsmM δ Exit := do
  loadHl
  sub regA regMemR
  subComp

def suiOp : AsmM δ Exit := do
  fetchOp
  sub regA regMemR
  subComp

def anaOp (src : Fin 32) : AsmM δ Exit := do
  and regA src
  anaComp

def anaBOp : AsmM δ Exit := anaOp regB
def anaCOp : AsmM δ Exit := anaOp regC
def anaDOp : AsmM δ Exit := anaOp regD
def anaEOp : AsmM δ Exit := anaOp regE
def anaHOp : AsmM δ Exit := anaOp regH
def anaLOp : AsmM δ Exit := anaOp regL
def anaAOp : AsmM δ Exit := anaOp regA

def anaMOp : AsmM δ Exit := do
  loadHl
  and regA regMemR
  anaComp

def aniOp : AsmM δ Exit := do
  fetchOp
  and regA regMemR
  anaComp

def xraOp (src : Fin 32) : AsmM δ Exit := do
  eor regA src
  xraComp

def xraBOp : AsmM δ Exit := xraOp regB
def xraCOp : AsmM δ Exit := xraOp regC
def xraDOp : AsmM δ Exit := xraOp regD
def xraEOp : AsmM δ Exit := xraOp regE
def xraHOp : AsmM δ Exit := xraOp regH
def xraLOp : AsmM δ Exit := xraOp regL
def xraAOp : AsmM δ Exit := xraOp regA

def xraMOp : AsmM δ Exit := do
  loadHl
  eor regA regMemR
  xraComp

def xriOp : AsmM δ Exit := do
  fetchOp
  eor regA regMemR
  xraComp

def oraOp (src : Fin 32) : AsmM δ Exit := do
  or regA src
  oraComp

def oraBOp : AsmM δ Exit := oraOp regB
def oraCOp : AsmM δ Exit := oraOp regC
def oraDOp : AsmM δ Exit := oraOp regD
def oraEOp : AsmM δ Exit := oraOp regE
def oraHOp : AsmM δ Exit := oraOp regH
def oraLOp : AsmM δ Exit := oraOp regL
def oraAOp : AsmM δ Exit := oraOp regA

def oraMOp : AsmM δ Exit := do
  loadHl
  or regA regMemR
  oraComp

def oriOp : AsmM δ Exit := do
  fetchOp
  or regA regMemR
  oraComp

def adcOp (src : Fin 32) : AsmM δ Exit := do
  mov regTmp1 src
  adcComp

def adcBOp : AsmM δ Exit := adcOp regB
def adcCOp : AsmM δ Exit := adcOp regC
def adcDOp : AsmM δ Exit := adcOp regD
def adcEOp : AsmM δ Exit := adcOp regE
def adcHOp : AsmM δ Exit := adcOp regH
def adcLOp : AsmM δ Exit := adcOp regL
def adcAOp : AsmM δ Exit := adcOp regA

def adcMOp : AsmM δ Exit := do
  loadHl
  mov regTmp1 regMemR
  adcComp

def aciOp : AsmM δ Exit := do
  fetchOp
  mov regTmp1 regMemR
  adcComp

def sbbOp (src : Fin 32) : AsmM δ Exit := do
  mov regTmp1 src
  sbbComp

def sbbBOp : AsmM δ Exit := sbbOp regB
def sbbCOp : AsmM δ Exit := sbbOp regC
def sbbDOp : AsmM δ Exit := sbbOp regD
def sbbEOp : AsmM δ Exit := sbbOp regE
def sbbHOp : AsmM δ Exit := sbbOp regH
def sbbLOp : AsmM δ Exit := sbbOp regL
def sbbAOp : AsmM δ Exit := sbbOp regA

def sbbMOp : AsmM δ Exit := do
  loadHl
  mov regTmp1 regMemR
  sbbComp

def sbiOp : AsmM δ Exit := do
  fetchOp
  mov regTmp1 regMemR
  sbbComp

def cmpOp (src : Fin 32) : AsmM δ Exit := do
  mov regTmp1 regA
  sub regTmp1 src
  cmpComp

def cmpBOp : AsmM δ Exit := cmpOp regB
def cmpCOp : AsmM δ Exit := cmpOp regC
def cmpDOp : AsmM δ Exit := cmpOp regD
def cmpEOp : AsmM δ Exit := cmpOp regE
def cmpHOp : AsmM δ Exit := cmpOp regH
def cmpLOp : AsmM δ Exit := cmpOp regL
def cmpAOp : AsmM δ Exit := cmpOp regA

def cmpMOp : AsmM δ Exit := do
  loadHl
  mov regTmp1 regA
  sub regTmp1 regMemR
  cmpComp

def cpiOp : AsmM δ Exit := do
  fetchOp
  mov regTmp1 regA
  sub regTmp1 regMemR
  cmpComp

def pushOp (hi lo : Fin 32) : AsmM δ Exit := do
  mov regMemL lo
  mov regMemR hi
  pushComp env

def pushBOp : AsmM δ Exit := pushOp env regB regC
def pushDOp : AsmM δ Exit := pushOp env regD regE
def pushHOp : AsmM δ Exit := pushOp env regH regL
def pushPswOp : AsmM δ Exit := pushOp env regA regF

def popOp (hi lo : Fin 32) : AsmM δ Exit := do
  popStart
  mov lo regMemL
  mov hi regMemR
  fetchNext

def popBOp : AsmM δ Exit := popOp regB regC
def popDOp : AsmM δ Exit := popOp regD regE
def popHOp : AsmM δ Exit := popOp regH regL
def popPswOp : AsmM δ Exit := popOp regA regF

def retOp : AsmM δ Exit := do
  loadSp
  mov regPcL regMemR
  ldi regTmp2 1#8
  add regSpL regTmp2
  adc regSpH r1
  loadSp
  mov regPcH regMemR
  add regSpL regTmp2
  adc regSpH r1
  fetchNext

/-- `sbrc reg_f, b` over `rjmp fetch_next`. -/
def retUnless (b : Nat) : AsmM δ Exit := do
  if ← bit regF b then
    fetchNext
  else
    retOp

/-- `sbrs reg_f, b` over `rjmp fetch_next`. -/
def retWhen (b : Nat) : AsmM δ Exit := do
  if ← bit regF b then
    retOp
  else
    fetchNext

def rnzOp : AsmM δ Exit := retUnless bZ
def rzOp : AsmM δ Exit := retWhen bZ
def rncOp : AsmM δ Exit := retUnless bCY
def rcOp : AsmM δ Exit := retWhen bCY
def rpoOp : AsmM δ Exit := retUnless bP

/-- Tests for the return itself, where its siblings test for going on. -/
def rpeOp : AsmM δ Exit := do
  if ← bit regF bP then
    retOp
  else
    fetchNext

def rpOp : AsmM δ Exit := retUnless bS
def rmOp : AsmM δ Exit := retWhen bS

def jmpOp : AsmM δ Exit := do
  fetchOp
  mov regTmp2 regMemR
  fetchOp
  mov regPcH regMemR
  mov regPcL regTmp2
  fetchNext

/-- The way past the operand of a jump or call not taken. -/
def skipOperand : AsmM δ Exit := do
  ldi regTmp1 2#8
  add regPcL regTmp1
  adc regPcH r1
  fetchNext

/-- `sbrs reg_f, b` over `rjmp jmp_op`. -/
def jmpUnless (b : Nat) : AsmM δ Exit := do
  if ← bit regF b then
    skipOperand
  else
    jmpOp

/-- `sbrc reg_f, b` over `rjmp jmp_op`. -/
def jmpWhen (b : Nat) : AsmM δ Exit := do
  if ← bit regF b then
    jmpOp
  else
    skipOperand

def jnzOp : AsmM δ Exit := jmpUnless bZ
def jzOp : AsmM δ Exit := jmpWhen bZ
def jncOp : AsmM δ Exit := jmpUnless bCY
def jcOp : AsmM δ Exit := jmpWhen bCY
def jpoOp : AsmM δ Exit := jmpUnless bP
def jpeOp : AsmM δ Exit := jmpWhen bP
def jpOp : AsmM δ Exit := jmpUnless bS
def jmOp : AsmM δ Exit := jmpWhen bS

def callOp : AsmM δ Exit := do
  fetchOp
  mov regMemL regMemR
  fetchOp
  mov regMemH regMemR
  ldi regTmp2 1#8
  sub regSpL regTmp2
  sbc regSpH r1
  mov regMemR regPcH
  storeSp env
  sub regSpL regTmp2
  sbc regSpH r1
  mov regMemR regPcL
  storeSp env
  mov regPcL regMemL
  mov regPcH regMemH
  fetchNext

/-- `sbrs reg_f, b` over `rjmp call_op`. -/
def callUnless (b : Nat) : AsmM δ Exit := do
  if ← bit regF b then
    skipOperand
  else
    callOp env

/-- `sbrc reg_f, b` over `rjmp call_op`. -/
def callWhen (b : Nat) : AsmM δ Exit := do
  if ← bit regF b then
    callOp env
  else
    skipOperand

def cnzOp : AsmM δ Exit := callUnless env bZ
def czOp : AsmM δ Exit := callWhen env bZ
def cncOp : AsmM δ Exit := callUnless env bCY
def ccOp : AsmM δ Exit := callWhen env bCY
def cpoOp : AsmM δ Exit := callUnless env bP
def cpeOp : AsmM δ Exit := callWhen env bP
def cpOp : AsmM δ Exit := callUnless env bS
def cmOp : AsmM δ Exit := callWhen env bS

def rstOp (addr : Byte) : AsmM δ Exit := do
  ldi regTmp1 addr
  rstComp env

def rst00Op : AsmM δ Exit := rstOp env 0x00#8
def rst08Op : AsmM δ Exit := rstOp env 0x08#8
def rst10Op : AsmM δ Exit := rstOp env 0x10#8
def rst18Op : AsmM δ Exit := rstOp env 0x18#8
def rst20Op : AsmM δ Exit := rstOp env 0x20#8
def rst28Op : AsmM δ Exit := rstOp env 0x28#8
def rst30Op : AsmM δ Exit := rstOp env 0x30#8
def rst38Op : AsmM δ Exit := rstOp env 0x38#8

def xthlOp : AsmM δ Exit := do
  mov regMemL regSpL
  mov regMemH regSpH
  load
  mov regTmp1 regL
  mov regL regMemR
  mov regMemR regTmp1
  store env
  ldi regTmp1 1#8
  add regMemL regTmp1
  adc regMemH r1
  load
  mov regTmp1 regH
  mov regH regMemR
  mov regMemR regTmp1
  store env
  fetchNext

def xchgOp : AsmM δ Exit := do
  mov regTmp1 regH
  mov regH regD
  mov regD regTmp1
  mov regTmp1 regL
  mov regL regE
  mov regE regTmp1
  fetchNext

def pchlOp : AsmM δ Exit := do
  mov regPcL regL
  mov regPcH regH
  fetchNext

def sphlOp : AsmM δ Exit := do
  mov regSpL regL
  mov regSpH regH
  fetchNext

def outOp : AsmM δ Exit := do
  fetchOp
  pushRegs
  mov r24 regMemR
  mov r22 regA
  callOut env
  popRegs
  fetchNext

def inOp : AsmM δ Exit := do
  fetchOp
  pushRegs
  mov r24 regMemR
  callIn env
  mov regA r24
  popRegs
  fetchNext

def diOp : AsmM δ Exit := fetchNext

def eiOp : AsmM δ Exit := fetchNext

def invOp : AsmM δ Exit := do
  ldi regTmp1 0xff#8
  ret

/-! ## The jump table -/

/-- The entries of the table at label `decode`. -/
def decode : List (AsmM δ Exit) :=
  [ fetchNext,  -- 0x00
    lxiBOp,  -- 0x01
    staxBOp env,  -- 0x02
    inxBOp,  -- 0x03
    inrBOp,  -- 0x04
    dcrBOp,  -- 0x05
    mviBOp,  -- 0x06
    rlcOp,  -- 0x07
    invOp,  -- 0x08
    dadBOp,  -- 0x09
    ldaxBOp,  -- 0x0a
    dcxBOp,  -- 0x0b
    inrCOp,  -- 0x0c
    dcrCOp,  -- 0x0d
    mviCOp,  -- 0x0e
    rrcOp,  -- 0x0f
    invOp,  -- 0x10
    lxiDOp,  -- 0x11
    staxDOp env,  -- 0x12
    inxDOp,  -- 0x13
    inrDOp,  -- 0x14
    dcrDOp,  -- 0x15
    mviDOp,  -- 0x16
    ralOp,  -- 0x17
    invOp,  -- 0x18
    dadDOp,  -- 0x19
    ldaxDOp,  -- 0x1a
    dcxDOp,  -- 0x1b
    inrEOp,  -- 0x1c
    dcrEOp,  -- 0x1d
    mviEOp,  -- 0x1e
    rarOp,  -- 0x1f
    invOp,  -- 0x20
    lxiHOp,  -- 0x21
    shldOp env,  -- 0x22
    inxHOp,  -- 0x23
    inrHOp,  -- 0x24
    dcrHOp,  -- 0x25
    mviHOp,  -- 0x26
    daaOp,  -- 0x27
    invOp,  -- 0x28
    dadHOp,  -- 0x29
    lhldOp,  -- 0x2a
    dcxHOp,  -- 0x2b
    inrLOp,  -- 0x2c
    dcrLOp,  -- 0x2d
    mviLOp,  -- 0x2e
    cmaOp,  -- 0x2f
    invOp,  -- 0x30
    lxiSpOp,  -- 0x31
    staOp env,  -- 0x32
    inxSpOp,  -- 0x33
    inrMOp env,  -- 0x34
    dcrMOp env,  -- 0x35
    mviMOp env,  -- 0x36
    stcOp,  -- 0x37
    invOp,  -- 0x38
    dadSpOp,  -- 0x39
    ldaOp,  -- 0x3a
    dcxSpOp,  -- 0x3b
    inrAOp,  -- 0x3c
    dcrAOp,  -- 0x3d
    mviAOp,  -- 0x3e
    cmcOp,  -- 0x3f
    fetchNext,  -- 0x40
    movBcOp,  -- 0x41
    movBdOp,  -- 0x42
    movBeOp,  -- 0x43
    movBhOp,  -- 0x44
    movBlOp,  -- 0x45
    movBmOp,  -- 0x46
    movBaOp,  -- 0x47
    movCbOp,  -- 0x48
    fetchNext,  -- 0x49
    movCdOp,  -- 0x4a
    movCeOp,  -- 0x4b
    movChOp,  -- 0x4c
    movClOp,  -- 0x4d
    movCmOp,  -- 0x4e
    movCaOp,  -- 0x4f
    movDbOp,  -- 0x50
    movDcOp,  -- 0x51
    fetchNext,  -- 0x52
    movDeOp,  -- 0x53
    movDhOp,  -- 0x54
    movDlOp,  -- 0x55
    movDmOp,  -- 0x56
    movDaOp,  -- 0x57
    movEbOp,  -- 0x58
    movEcOp,  -- 0x59
    movEdOp,  -- 0x5a
    fetchNext,  -- 0x5b
    movEhOp,  -- 0x5c
    movElOp,  -- 0x5d
    movEmOp,  -- 0x5e
    movEaOp,  -- 0x5f
    movHbOp,  -- 0x60
    movHcOp,  -- 0x61
    movHdOp,  -- 0x62
    movHeOp,  -- 0x63
    fetchNext,  -- 0x64
    movHlOp,  -- 0x65
    movHmOp,  -- 0x66
    movHaOp,  -- 0x67
    movLbOp,  -- 0x68
    movLcOp,  -- 0x69
    movLdOp,  -- 0x6a
    movLeOp,  -- 0x6b
    movLhOp,  -- 0x6c
    fetchNext,  -- 0x6d
    movLmOp,  -- 0x6e
    movLaOp,  -- 0x6f
    movMbOp env,  -- 0x70
    movMcOp env,  -- 0x71
    movMdOp env,  -- 0x72
    movMeOp env,  -- 0x73
    movMhOp env,  -- 0x74
    movMlOp env,  -- 0x75
    haltOp,  -- 0x76
    movMaOp env,  -- 0x77
    movAbOp,  -- 0x78
    movAcOp,  -- 0x79
    movAdOp,  -- 0x7a
    movAeOp,  -- 0x7b
    movAhOp,  -- 0x7c
    movAlOp,  -- 0x7d
    movAmOp,  -- 0x7e
    fetchNext,  -- 0x7f
    addBOp,  -- 0x80
    addCOp,  -- 0x81
    addDOp,  -- 0x82
    addEOp,  -- 0x83
    addHOp,  -- 0x84
    addLOp,  -- 0x85
    addMOp,  -- 0x86
    addAOp,  -- 0x87
    adcBOp,  -- 0x88
    adcCOp,  -- 0x89
    adcDOp,  -- 0x8a
    adcEOp,  -- 0x8b
    adcHOp,  -- 0x8c
    adcLOp,  -- 0x8d
    adcMOp,  -- 0x8e
    adcAOp,  -- 0x8f
    subBOp,  -- 0x90
    subCOp,  -- 0x91
    subDOp,  -- 0x92
    subEOp,  -- 0x93
    subHOp,  -- 0x94
    subLOp,  -- 0x95
    subMOp,  -- 0x96
    subAOp,  -- 0x97
    sbbBOp,  -- 0x98
    sbbCOp,  -- 0x99
    sbbDOp,  -- 0x9a
    sbbEOp,  -- 0x9b
    sbbHOp,  -- 0x9c
    sbbLOp,  -- 0x9d
    sbbMOp,  -- 0x9e
    sbbAOp,  -- 0x9f
    anaBOp,  -- 0xa0
    anaCOp,  -- 0xa1
    anaDOp,  -- 0xa2
    anaEOp,  -- 0xa3
    anaHOp,  -- 0xa4
    anaLOp,  -- 0xa5
    anaMOp,  -- 0xa6
    anaAOp,  -- 0xa7
    xraBOp,  -- 0xa8
    xraCOp,  -- 0xa9
    xraDOp,  -- 0xaa
    xraEOp,  -- 0xab
    xraHOp,  -- 0xac
    xraLOp,  -- 0xad
    xraMOp,  -- 0xae
    xraAOp,  -- 0xaf
    oraBOp,  -- 0xb0
    oraCOp,  -- 0xb1
    oraDOp,  -- 0xb2
    oraEOp,  -- 0xb3
    oraHOp,  -- 0xb4
    oraLOp,  -- 0xb5
    oraMOp,  -- 0xb6
    oraAOp,  -- 0xb7
    cmpBOp,  -- 0xb8
    cmpCOp,  -- 0xb9
    cmpDOp,  -- 0xba
    cmpEOp,  -- 0xbb
    cmpHOp,  -- 0xbc
    cmpLOp,  -- 0xbd
    cmpMOp,  -- 0xbe
    cmpAOp,  -- 0xbf
    rnzOp,  -- 0xc0
    popBOp,  -- 0xc1
    jnzOp,  -- 0xc2
    jmpOp,  -- 0xc3
    cnzOp env,  -- 0xc4
    pushBOp env,  -- 0xc5
    adiOp,  -- 0xc6
    rst00Op env,  -- 0xc7
    rzOp,  -- 0xc8
    retOp,  -- 0xc9
    jzOp,  -- 0xca
    invOp,  -- 0xcb
    czOp env,  -- 0xcc
    callOp env,  -- 0xcd
    aciOp,  -- 0xce
    rst08Op env,  -- 0xcf
    rncOp,  -- 0xd0
    popDOp,  -- 0xd1
    jncOp,  -- 0xd2
    outOp env,  -- 0xd3
    cncOp env,  -- 0xd4
    pushDOp env,  -- 0xd5
    suiOp,  -- 0xd6
    rst10Op env,  -- 0xd7
    rcOp,  -- 0xd8
    invOp,  -- 0xd9
    jcOp,  -- 0xda
    inOp env,  -- 0xdb
    ccOp env,  -- 0xdc
    invOp,  -- 0xdd
    sbiOp,  -- 0xde
    rst18Op env,  -- 0xdf
    rpoOp,  -- 0xe0
    popHOp,  -- 0xe1
    jpoOp,  -- 0xe2
    xthlOp env,  -- 0xe3
    cpoOp env,  -- 0xe4
    pushHOp env,  -- 0xe5
    aniOp,  -- 0xe6
    rst20Op env,  -- 0xe7
    rpeOp,  -- 0xe8
    pchlOp,  -- 0xe9
    jpeOp,  -- 0xea
    xchgOp,  -- 0xeb
    cpeOp env,  -- 0xec
    invOp,  -- 0xed
    xriOp,  -- 0xee
    rst28Op env,  -- 0xef
    rpOp,  -- 0xf0
    popPswOp,  -- 0xf1
    jpOp,  -- 0xf2
    diOp,  -- 0xf3
    cpOp env,  -- 0xf4
    pushPswOp env,  -- 0xf5
    oriOp,  -- 0xf6
    rst30Op env,  -- 0xf7
    rmOp,  -- 0xf8
    sphlOp,  -- 0xf9
    jmOp,  -- 0xfa
    eiOp,  -- 0xfb
    cmOp env,  -- 0xfc
    invOp,  -- 0xfd
    cpiOp,  -- 0xfe
    rst38Op env ]  -- 0xff

/-! ## Fetching -/

/-- `ijmp` into the table: word address `z` holds entry `z - decodeAt`. -/
def ijmp (z : Word) : AsmM δ Exit :=
  (decode env).getD (z - env.decodeAt).toNat (invOp)

/-- From `fetch` to the end of the handler it jumps to, with `fetch_op`
expanded in place. -/
def fetch : AsmM δ Exit := do
  ldi r30 (loByte env.decodeAt)
  ldi r31 (hiByte env.decodeAt)
  fetchOp
  add r30 regMemR
  adc r31 r1
  let s ← get
  ijmp env (word (s.r r31) (s.r r30))

/-- One turn of the fetch loop, which goes on until a handler returns. -/
def step (s : Avr.State (Bus δ)) : Avr.State (Bus δ) × Bool :=
  ((fetch env s).2, (fetch env s).1 == .ret)

end I8080

end CpMega88
