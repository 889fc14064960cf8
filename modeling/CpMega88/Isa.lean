import CpMega88.Lib.Bytes

/-!
# The 8080 instruction set

The abstract layer under both CPU cores: what an 8080 instruction *is*
(`decode` reads the bit fields of an opcode) and what it *does*
(`exec`, on a state of registers, flags, memory and the devices behind
the ports). Nothing here is translated from the cores; they are proved
against it.

Operand bytes are consumed one at a time from `pc`, low byte first, so
every step of `pc` and `sp` and every address wraps at 64K by being a
`Word`. The arithmetic is stated on numbers: a result is the exact sum
or difference cut to a byte, a carry is the sum reaching 256, a borrow
the difference falling below 0.

The one thing the two cores and Intel's chip do not share is the
auxiliary carry. It is a parameter (`AuxCarry`), with the cores'
convention (`coreAux`: the borrow of bit 3 after a subtraction, always
set by a logical AND) beside Intel's (`intelAux`: the carry of the
adder that subtracts by complement, bit 3 of either operand after AND).
-/

namespace CpMega88

open Bytes

/-! ## What is behind the callbacks -/

/-- A call of one of the two port callbacks, with the reply given. -/
inductive PortCall where
  | input (port reply : Byte)
  | output (port val : Byte)
deriving DecidableEq, Repr

/-- The `in` and `out` callbacks, over devices of state `δ`. Either may
change the devices and, by DMA, the memory. -/
structure Ports (δ : Type) where
  input : Byte → Mem → δ → Byte × Mem × δ
  output : Byte → Byte → Mem → δ → Mem × δ

/-- Nothing attached: IN reads FFh, OUT goes nowhere. -/
def Ports.idle : Ports Unit where
  input := fun _ mem _ => (0xff#8, mem, ())
  output := fun _ _ mem _ => (mem, ())

namespace Isa

/-! ## Flags -/

def flagCY : Byte := 0x01#8
def flagP : Byte := 0x04#8
def flagAC : Byte := 0x10#8
def flagZ : Byte := 0x40#8
def flagS : Byte := 0x80#8

def hasCY (f : Byte) : Bool := f.getLsbD 0
def hasP (f : Byte) : Bool := f.getLsbD 2
def hasAC (f : Byte) : Bool := f.getLsbD 4
def hasZ (f : Byte) : Bool := f.getLsbD 6
def hasS (f : Byte) : Bool := f.getLsbD 7

/-- The flag byte `S Z 0 AC 0 P 0 CY`. -/
def packFlags (s z ac p cy : Bool) : Byte :=
  (if s then flagS else 0#8) ||| (if z then flagZ else 0#8) ||| (if ac then flagAC else 0#8)
    ||| (if p then flagP else 0#8) ||| (if cy then flagCY else 0#8)

/-- Sign, zero and parity of `r`, with the given carries. -/
def flagsOf (r : Byte) (ac cy : Bool) : Byte :=
  packFlags r.msb (r == 0#8) ac (evenParity r) cy

/-- `f` with only its carry replaced. -/
def setCY (f : Byte) (c : Bool) : Byte :=
  (f &&& ~~~flagCY) ||| (if c then flagCY else 0#8)

/-! ## Operands, conditions and instructions -/

/-- The eight-bit operands in the order of their field: `m` is the
memory byte at HL. -/
inductive Reg where
  | b | c | d | e | h | l | m | a
deriving DecidableEq, Repr

inductive Pair where
  | bc | de | hl | sp
deriving DecidableEq, Repr

/-- The pairs PUSH and POP know: field 3 is A and the flags. -/
inductive StackPair where
  | bc | de | hl | psw
deriving DecidableEq, Repr

/-- The pairs LDAX and STAX know. -/
inductive IndexPair where
  | bc | de
deriving DecidableEq, Repr

inductive Cond where
  | nz | z | nc | c | po | pe | p | m
deriving DecidableEq, Repr

inductive AluOp where
  | add | adc | sub | sbb | ana | xra | ora | cmp
deriving DecidableEq, Repr

inductive RotOp where
  | rlc | rrc | ral | rar
deriving DecidableEq, Repr

inductive Instr where
  | nop | hlt | undefined
  | mov (dst src : Reg)
  | mvi (dst : Reg)
  | lxi (rp : Pair)
  | inx (rp : Pair)
  | dcx (rp : Pair)
  | dad (rp : Pair)
  | ldax (rp : IndexPair)
  | stax (rp : IndexPair)
  | lda | sta | lhld | shld
  | inr (r : Reg)
  | dcr (r : Reg)
  | rot (op : RotOp)
  | daa | cma | stc | cmc
  | alu (op : AluOp) (src : Reg)
  | aluImm (op : AluOp)
  | push (rp : StackPair)
  | pop (rp : StackPair)
  | ret | retIf (cc : Cond)
  | jmp | jmpIf (cc : Cond)
  | call | callIf (cc : Cond)
  | rst (n : Fin 8)
  | xthl | xchg | pchl | sphl
  | input | output
  | ei | di
deriving DecidableEq, Repr

/-! ## Decoding -/

def Reg.ofField : Nat → Reg
  | 0 => .b | 1 => .c | 2 => .d | 3 => .e | 4 => .h | 5 => .l | 6 => .m | _ => .a

def Pair.ofField : Nat → Pair
  | 0 => .bc | 1 => .de | 2 => .hl | _ => .sp

def StackPair.ofField : Nat → StackPair
  | 0 => .bc | 1 => .de | 2 => .hl | _ => .psw

def Cond.ofField : Nat → Cond
  | 0 => .nz | 1 => .z | 2 => .nc | 3 => .c | 4 => .po | 5 => .pe | 6 => .p | _ => .m

def AluOp.ofField : Nat → AluOp
  | 0 => .add | 1 => .adc | 2 => .sub | 3 => .sbb
  | 4 => .ana | 5 => .xra | 6 => .ora | _ => .cmp

/-- Opcodes `00yyyzzz`. -/
def decode00 (y z : Nat) : Instr :=
  match z with
  | 0 => if y = 0 then .nop else .undefined
  | 1 => if y % 2 = 0 then .lxi (.ofField (y / 2)) else .dad (.ofField (y / 2))
  | 2 => match y with
    | 0 => .stax .bc
    | 1 => .ldax .bc
    | 2 => .stax .de
    | 3 => .ldax .de
    | 4 => .shld
    | 5 => .lhld
    | 6 => .sta
    | _ => .lda
  | 3 => if y % 2 = 0 then .inx (.ofField (y / 2)) else .dcx (.ofField (y / 2))
  | 4 => .inr (.ofField y)
  | 5 => .dcr (.ofField y)
  | 6 => .mvi (.ofField y)
  | _ => match y with
    | 0 => .rot .rlc
    | 1 => .rot .rrc
    | 2 => .rot .ral
    | 3 => .rot .rar
    | 4 => .daa
    | 5 => .cma
    | 6 => .stc
    | _ => .cmc

/-- Opcodes `11yyyzzz`. -/
def decode11 (y z : Nat) : Instr :=
  match z with
  | 0 => .retIf (.ofField y)
  | 1 => if y % 2 = 0 then .pop (.ofField (y / 2)) else
    match y with
    | 1 => .ret
    | 5 => .pchl
    | 7 => .sphl
    | _ => .undefined
  | 2 => .jmpIf (.ofField y)
  | 3 => match y with
    | 0 => .jmp
    | 2 => .output
    | 3 => .input
    | 4 => .xthl
    | 5 => .xchg
    | 6 => .di
    | 7 => .ei
    | _ => .undefined
  | 4 => .callIf (.ofField y)
  | 5 => if y % 2 = 0 then .push (.ofField (y / 2)) else if y = 1 then .call else .undefined
  | 6 => .aluImm (.ofField y)
  | _ => .rst (Fin.ofNat 8 y)

/-- The instruction an opcode `xxyyyzzz` stands for. -/
def decode (op : Byte) : Instr :=
  let y := op.toNat / 8 % 8
  let z := op.toNat % 8
  match op.toNat / 64 with
  | 0 => decode00 y z
  | 1 => if y = 6 ∧ z = 6 then .hlt else .mov (.ofField y) (.ofField z)
  | 2 => .alu (.ofField y) (.ofField z)
  | _ => decode11 y z

/-- The twelve opcodes the 8080 leaves undefined. -/
def undefinedOpcodes : List Byte :=
  [0x08#8, 0x10#8, 0x18#8, 0x20#8, 0x28#8, 0x30#8, 0x38#8, 0xcb#8, 0xd9#8, 0xdd#8, 0xed#8, 0xfd#8]

theorem decode_undefined_iff : ∀ op : Byte, decode op = .undefined ↔ op ∈ undefinedOpcodes := by
  decide +kernel

/-! ## Encoding -/

def Reg.field : Reg → Nat
  | .b => 0 | .c => 1 | .d => 2 | .e => 3 | .h => 4 | .l => 5 | .m => 6 | .a => 7

def Pair.field : Pair → Nat
  | .bc => 0 | .de => 1 | .hl => 2 | .sp => 3

def StackPair.field : StackPair → Nat
  | .bc => 0 | .de => 1 | .hl => 2 | .psw => 3

def IndexPair.field : IndexPair → Nat
  | .bc => 0 | .de => 1

def Cond.field : Cond → Nat
  | .nz => 0 | .z => 1 | .nc => 2 | .c => 3 | .po => 4 | .pe => 5 | .p => 6 | .m => 7

def AluOp.field : AluOp → Nat
  | .add => 0 | .adc => 1 | .sub => 2 | .sbb => 3 | .ana => 4 | .xra => 5 | .ora => 6 | .cmp => 7

def RotOp.field : RotOp → Nat
  | .rlc => 0 | .rrc => 1 | .ral => 2 | .rar => 3

/-- The opcode of an instruction (any of the twelve for `undefined`). -/
def encode : Instr → Byte
  | .nop => 0x00#8
  | .hlt => 0x76#8
  | .undefined => 0x08#8
  | .mov dst src => .ofNat 8 (0x40 + 8 * dst.field + src.field)
  | .mvi dst => .ofNat 8 (0x06 + 8 * dst.field)
  | .lxi rp => .ofNat 8 (0x01 + 16 * rp.field)
  | .inx rp => .ofNat 8 (0x03 + 16 * rp.field)
  | .dcx rp => .ofNat 8 (0x0b + 16 * rp.field)
  | .dad rp => .ofNat 8 (0x09 + 16 * rp.field)
  | .ldax rp => .ofNat 8 (0x0a + 16 * rp.field)
  | .stax rp => .ofNat 8 (0x02 + 16 * rp.field)
  | .lda => 0x3a#8
  | .sta => 0x32#8
  | .lhld => 0x2a#8
  | .shld => 0x22#8
  | .inr r => .ofNat 8 (0x04 + 8 * r.field)
  | .dcr r => .ofNat 8 (0x05 + 8 * r.field)
  | .rot op => .ofNat 8 (0x07 + 8 * op.field)
  | .daa => 0x27#8
  | .cma => 0x2f#8
  | .stc => 0x37#8
  | .cmc => 0x3f#8
  | .alu op src => .ofNat 8 (0x80 + 8 * op.field + src.field)
  | .aluImm op => .ofNat 8 (0xc6 + 8 * op.field)
  | .push rp => .ofNat 8 (0xc5 + 16 * rp.field)
  | .pop rp => .ofNat 8 (0xc1 + 16 * rp.field)
  | .ret => 0xc9#8
  | .retIf cc => .ofNat 8 (0xc0 + 8 * cc.field)
  | .jmp => 0xc3#8
  | .jmpIf cc => .ofNat 8 (0xc2 + 8 * cc.field)
  | .call => 0xcd#8
  | .callIf cc => .ofNat 8 (0xc4 + 8 * cc.field)
  | .rst n => .ofNat 8 (0xc7 + 8 * n.val)
  | .xthl => 0xe3#8
  | .xchg => 0xeb#8
  | .pchl => 0xe9#8
  | .sphl => 0xf9#8
  | .input => 0xdb#8
  | .output => 0xd3#8
  | .ei => 0xfb#8
  | .di => 0xf3#8

/-- Every defined opcode is the encoding of what it decodes to. -/
theorem encode_decode : ∀ op : Byte, decode op ≠ .undefined → encode (decode op) = op := by
  decide +kernel

/-- A defined instruction has one opcode. -/
theorem eq_encode {op : Byte} {i : Instr} (h : decode op = i) (hi : i ≠ .undefined) :
    op = encode i := by
  rw [← h]
  exact (encode_decode op (h ▸ hi)).symm

theorem decode_hlt_iff (op : Byte) : decode op = .hlt ↔ op = 0x76#8 := by
  constructor
  · intro h
    exact eq_encode h (by decide)
  · rintro rfl
    rfl

/-- `MOV M,M` is no instruction: its encoding is HLT. -/
theorem decode_ne_mov_m_m (op : Byte) : decode op ≠ .mov .m .m := by
  intro h
  obtain rfl := eq_encode h (by decide)
  exact absurd h (by decide)

/-! ## States -/

/-- Registers, memory, devices, and the port calls made so far, the
latest first. -/
structure State (δ : Type) where
  a : Byte
  f : Byte
  b : Byte
  c : Byte
  d : Byte
  e : Byte
  h : Byte
  l : Byte
  pc : Word
  sp : Word
  mem : Mem
  dev : δ
  calls : List PortCall

namespace State

variable {δ : Type}

def hl (s : State δ) : Word := word s.h s.l

def index (s : State δ) : IndexPair → Word
  | .bc => word s.b s.c
  | .de => word s.d s.e

def store (s : State δ) (addr : Word) (v : Byte) : State δ :=
  { s with mem := Function.update s.mem addr v }

def get (s : State δ) : Reg → Byte
  | .b => s.b
  | .c => s.c
  | .d => s.d
  | .e => s.e
  | .h => s.h
  | .l => s.l
  | .m => s.mem s.hl
  | .a => s.a

def set (s : State δ) : Reg → Byte → State δ
  | .b, v => { s with b := v }
  | .c, v => { s with c := v }
  | .d, v => { s with d := v }
  | .e, v => { s with e := v }
  | .h, v => { s with h := v }
  | .l, v => { s with l := v }
  | .m, v => s.store s.hl v
  | .a, v => { s with a := v }

def getPair (s : State δ) : Pair → Word
  | .bc => word s.b s.c
  | .de => word s.d s.e
  | .hl => s.hl
  | .sp => s.sp

/-- Write a pair from its two bytes. -/
def setPair (s : State δ) : Pair → Byte → Byte → State δ
  | .bc, hi, lo => { s with b := hi, c := lo }
  | .de, hi, lo => { s with d := hi, e := lo }
  | .hl, hi, lo => { s with h := hi, l := lo }
  | .sp, hi, lo => { s with sp := word hi lo }

/-- The byte at `pc`. -/
def imm (s : State δ) : Byte := s.mem s.pc

/-- The byte after it. -/
def imm2 (s : State δ) : Byte := s.mem (s.pc + 1)

/-- The little-endian word at `pc`. -/
def imm16 (s : State δ) : Word := word s.imm2 s.imm

def next (s : State δ) : State δ := { s with pc := s.pc + 1 }

def pushByte (s : State δ) (v : Byte) : State δ :=
  { s with sp := s.sp - 1, mem := Function.update s.mem (s.sp - 1) v }

def push (s : State δ) (hi lo : Byte) : State δ := (s.pushByte hi).pushByte lo

def getStackPair (s : State δ) : StackPair → Byte × Byte
  | .bc => (s.b, s.c)
  | .de => (s.d, s.e)
  | .hl => (s.h, s.l)
  | .psw => (s.a, s.f ||| 0x02#8)

def setStackPair (s : State δ) : StackPair → Byte → Byte → State δ
  | .bc, hi, lo => { s with b := hi, c := lo }
  | .de, hi, lo => { s with d := hi, e := lo }
  | .hl, hi, lo => { s with h := hi, l := lo }
  | .psw, hi, lo => { s with a := hi, f := lo }

/-- Drop the two bytes on top of the stack. -/
def drop2 (s : State δ) : State δ := { s with sp := s.sp + 1 + 1 }

def top (s : State δ) : Byte := s.mem s.sp

def top2 (s : State δ) : Byte := s.mem (s.sp + 1)

end State

/-! ## Arithmetic -/

/-- How bit 3 reaches the auxiliary carry: after `a + v + c`, after
`a - v - c`, and after `a & v`. -/
structure AuxCarry where
  add : Byte → Byte → Bool → Bool
  sub : Byte → Byte → Bool → Bool
  ana : Byte → Byte → Bool

/-- The carry out of bit 3 of `a + v + c`. -/
def nibbleCarry (a v : Byte) (c : Bool) : Bool :=
  16 ≤ a.toNat % 16 + v.toNat % 16 + c.toNat

/-- Intel's convention: subtraction adds the complement of the operand
and of the borrow. -/
def intelAux : AuxCarry where
  add := nibbleCarry
  sub a v c := nibbleCarry a (~~~v) (!c)
  ana a v := (a ||| v).getLsbD 3

/-- The cores' convention. -/
def coreAux : AuxCarry where
  add := nibbleCarry
  sub a v c := a.toNat % 16 < v.toNat % 16 + c.toNat
  ana _ _ := true

section Arithmetic

variable (aux : AuxCarry)

/-- Result and flags of `a + v + c`. -/
def addWith (a v : Byte) (c : Bool) : Byte × Byte :=
  let n := a.toNat + v.toNat + c.toNat
  let r := BitVec.ofNat 8 n
  (r, flagsOf r (aux.add a v c) (256 ≤ n))

/-- Result and flags of `a - v - c`. -/
def subWith (a v : Byte) (c : Bool) : Byte × Byte :=
  let n : Int := a.toNat - v.toNat - c.toNat
  let r := BitVec.ofInt 8 n
  (r, flagsOf r (aux.sub a v c) (n < 0))

def logic (r : Byte) (ac : Bool) : Byte × Byte := (r, flagsOf r ac false)

/-- Result and flags of an ALU operation on the accumulator. -/
def alu (op : AluOp) (a v : Byte) (c : Bool) : Byte × Byte :=
  match op with
  | .add => addWith aux a v false
  | .adc => addWith aux a v c
  | .sub => subWith aux a v false
  | .sbb => subWith aux a v c
  | .ana => logic (a &&& v) (aux.ana a v)
  | .xra => logic (a ^^^ v) false
  | .ora => logic (a ||| v) false
  | .cmp => (a, (subWith aux a v false).2)

/-- Rotated accumulator and the bit shifted out: RLC and RRC rotate the
eight bits of A, RAL and RAR the nine bits of CY and A. -/
def rotate (op : RotOp) (a : Byte) (c : Bool) : Byte × Bool :=
  match op with
  | .rlc => (a.rotateLeft 1, a.msb)
  | .rrc => (a.rotateRight 1, a.getLsbD 0)
  | .ral => (((BitVec.ofBool c ++ a).rotateLeft 1).setWidth 8, a.msb)
  | .rar => (((BitVec.ofBool c ++ a).rotateRight 1).setWidth 8, a.getLsbD 0)

/-- Decimal adjustment: 6 when the low digit overflowed, 60h when the
whole byte did. -/
def daa (a f : Byte) : Byte × Byte :=
  let lo := if 9 < a.toNat % 16 ∨ hasAC f then 6 else 0
  let hi := if 0x99 < a.toNat ∨ hasCY f then 0x60 else 0
  let r := BitVec.ofNat 8 (a.toNat + lo + hi)
  (r, flagsOf r (16 ≤ a.toNat % 16 + lo) (hi ≠ 0))

end Arithmetic

/-! ## Execution -/

def Cond.holds (f : Byte) : Cond → Bool
  | .nz => !hasZ f
  | .z => hasZ f
  | .nc => !hasCY f
  | .c => hasCY f
  | .po => !hasP f
  | .pe => hasP f
  | .p => !hasS f
  | .m => hasS f

section Exec

variable {δ : Type} (aux : AuxCarry) (ports : Ports δ)

def jumpTo (s : State δ) (addr : Word) : State δ := { s with pc := addr }

def execRet (s : State δ) : State δ := { s.drop2 with pc := word s.top2 s.top }

def execJmp (s : State δ) : State δ := jumpTo s s.imm16

/-- Both operand bytes are read before the return address is pushed. -/
def execCall (s : State δ) : State δ :=
  let s' := s.next.next
  jumpTo (s'.push (hiByte s'.pc) (loByte s'.pc)) s.imm16

def execInput (s : State δ) : State δ :=
  let r := ports.input s.imm s.mem s.dev
  { s.next with
    a := r.1, mem := r.2.1, dev := r.2.2, calls := .input s.imm r.1 :: s.calls }

def execOutput (s : State δ) : State δ :=
  let r := ports.output s.imm s.a s.mem s.dev
  { s.next with mem := r.1, dev := r.2, calls := .output s.imm s.a :: s.calls }

/-- The effect of an instruction whose opcode byte has been consumed. -/
def exec (i : Instr) (s : State δ) : State δ :=
  match i with
  | .nop | .hlt | .undefined | .ei | .di => s
  | .mov dst src => s.set dst (s.get src)
  | .mvi dst => s.next.set dst s.imm
  | .lxi rp => s.next.next.setPair rp s.imm2 s.imm
  | .inx rp => s.setPair rp (hiByte (s.getPair rp + 1)) (loByte (s.getPair rp + 1))
  | .dcx rp => s.setPair rp (hiByte (s.getPair rp - 1)) (loByte (s.getPair rp - 1))
  | .dad rp =>
      let n := s.hl.toNat + (s.getPair rp).toNat
      { s.setPair .hl (hiByte (BitVec.ofNat 16 n)) (loByte (BitVec.ofNat 16 n)) with
        f := setCY s.f (65536 ≤ n) }
  | .ldax rp => { s with a := s.mem (s.index rp) }
  | .stax rp => s.store (s.index rp) s.a
  | .lda => { s.next.next with a := s.mem s.imm16 }
  | .sta => s.next.next.store s.imm16 s.a
  | .lhld => { s.next.next with l := s.mem s.imm16, h := s.mem (s.imm16 + 1) }
  | .shld => (s.next.next.store s.imm16 s.l).store (s.imm16 + 1) s.h
  | .inr r =>
      let v := addWith aux (s.get r) 1#8 false
      { s.set r v.1 with f := flagsOf v.1 (hasAC v.2) (hasCY s.f) }
  | .dcr r =>
      let v := subWith aux (s.get r) 1#8 false
      { s.set r v.1 with f := flagsOf v.1 (hasAC v.2) (hasCY s.f) }
  | .rot op =>
      let v := rotate op s.a (hasCY s.f)
      { s with a := v.1, f := setCY s.f v.2 }
  | .daa => { s with a := (daa s.a s.f).1, f := (daa s.a s.f).2 }
  | .cma => { s with a := ~~~s.a }
  | .stc => { s with f := setCY s.f true }
  | .cmc => { s with f := setCY s.f (!hasCY s.f) }
  | .alu op src =>
      let v := alu aux op s.a (s.get src) (hasCY s.f)
      { s with a := v.1, f := v.2 }
  | .aluImm op =>
      let v := alu aux op s.a s.imm (hasCY s.f)
      { s.next with a := v.1, f := v.2 }
  | .push rp => s.push (s.getStackPair rp).1 (s.getStackPair rp).2
  | .pop rp => s.drop2.setStackPair rp s.top2 s.top
  | .ret => execRet s
  | .retIf cc => if cc.holds s.f then execRet s else s
  | .jmp => execJmp s
  | .jmpIf cc => if cc.holds s.f then execJmp s else s.next.next
  | .call => execCall s
  | .callIf cc => if cc.holds s.f then execCall s else s.next.next
  | .rst n => jumpTo (s.push (hiByte s.pc) (loByte s.pc)) (BitVec.ofNat 16 (8 * n))
  | .xthl => { (s.store s.sp s.l).store (s.sp + 1) s.h with l := s.top, h := s.top2 }
  | .xchg => { s with d := s.h, e := s.l, h := s.d, l := s.e }
  | .pchl => jumpTo s s.hl
  | .sphl => { s with sp := s.hl }
  | .input => execInput ports s
  | .output => execOutput ports s

/-- HLT and the undefined opcodes end the run. -/
def Instr.stops : Instr → Bool
  | .hlt | .undefined => true
  | _ => false

/-- Fetch, decode and execute one instruction. -/
def step (s : State δ) : State δ × Bool :=
  (exec aux ports (decode s.imm) s.next, (decode s.imm).stops)

end Exec

end Isa

end CpMega88
