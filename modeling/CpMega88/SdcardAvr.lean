import CpMega88.Lib.Splice
import CpMega88.SdcardPins
import Mathlib.Data.List.Basic

/-!
# The card driver on recorded pins

The driver of `SdcardPins` with what its pins do written down. The levels
of the three outputs are fields of the state. What comes back is whatever
`PIN` reads, one byte of `input` for each time it is read, so that a card
that answers late, wrongly or not at all is only another `input`. What
goes out is `sent`: a selected card takes the level of DI whenever the
clock rises.
-/

namespace CpMega88

open Bytes Runs Splice

namespace SdcardAvr

export SdcardPins (ULong32 Pin pDo replyBits)

/-- The statics of the driver and the levels of its pins. -/
structure Avr where
  buffer : Nat → Byte
  crc : Word
  curBlk : ULong32
  ccs : Byte
  ck : Bool
  di : Bool
  cs : Bool
  /-- What `PIN` will read. -/
  input : Nat → Byte
  /-- What the card has taken so far. -/
  sent : List Bool

abbrev AvrM := StateM Avr

instance : SdcardPins.Board Avr where
  pinHigh
    | .ck => modify fun avr =>
        { avr with
          ck := true
          sent := if avr.ck = false ∧ avr.cs = false then avr.sent ++ [avr.di] else avr.sent }
    | .di => modify fun avr => { avr with di := true }
    | .cs => modify fun avr => { avr with cs := true }
  pinLow
    | .ck => modify fun avr => { avr with ck := false }
    | .di => modify fun avr => { avr with di := false }
    | .cs => modify fun avr => { avr with cs := false }
  readPin := do
    let c := (← get).input 0
    modify fun avr => { avr with input := fun n => avr.input (n + 1) }
    return c
  statics avr := ⟨avr.buffer, avr.crc, avr.curBlk, avr.ccs⟩
  withStatics avr st :=
    { avr with buffer := st.buffer, crc := st.crc, curBlk := st.curBlk, ccs := st.ccs }

export SdcardPins (pinHigh pinLow readPin getStatics setStatics sdOutBit sdOut sdBusyLoop sdBusy
  sdInLoop sdIn sdCmd init initClock cmd0 cmd8 cmd1 cmd55 acmd41 cmd58 legacyTurn readyTurn ocrTurn
  opened legacy readOcr standard ifCond goIdle powerUp sdcardOpen blockCmd receive fetch transmit
  store flush crc read write)

theorem pinHigh_di_run (avr : Avr) : pinHigh .di avr = ((), { avr with di := true }) := rfl

theorem pinLow_cs_run (avr : Avr) : pinLow .cs avr = ((), { avr with cs := false }) := rfl

theorem pinLow_ck_run (avr : Avr) : pinLow .ck avr = ((), { avr with ck := false }) := rfl

/-! ## Clocking -/

/-- The card is selected and the clock low, as it is between two bits. -/
structure Idle (avr : Avr) : Prop where
  ck : avr.ck = false
  cs : avr.cs = false

/-- The driver after so many turns of the clock with DI left as it is. -/
def Avr.clocked (avr : Avr) (n : Nat) : Avr :=
  { avr with
    input := fun i => avr.input (i + n)
    sent := avr.sent ++ List.replicate n avr.di }

theorem Idle.clocked {avr : Avr} (h : Idle avr) (n : Nat) : Idle (avr.clocked n) :=
  ⟨h.ck, h.cs⟩

theorem clocked_zero (avr : Avr) : avr.clocked 0 = avr := by
  simp [Avr.clocked]

theorem clocked_clocked (avr : Avr) (m n : Nat) :
    (avr.clocked m).clocked n = avr.clocked (m + n) := by
  simp [Avr.clocked, Nat.add_assoc, Nat.add_comm n m]

theorem clock_run {α : Type} {avr : Avr} (h : Idle avr) (k : Byte → AvrM α) :
    (do pinHigh .ck; let c ← readPin; pinLow .ck; k c) avr = k (avr.input 0) (avr.clocked 1) := by
  obtain ⟨buffer, crc, curBlk, ccs, ck, di, cs, input, sent⟩ := avr
  obtain ⟨rfl, rfl⟩ : ck = false ∧ cs = false := ⟨h.ck, h.cs⟩
  rfl

/-- After how many readings of `PIN` the level is the one waited for. -/
def polls (f : Byte) : Nat → (Nat → Byte) → Option Nat
  | 0, _ => none
  | n + 1, input =>
      if f &&& pDo = input 0 &&& pDo then some 0
      else (polls f n fun i => input (i + 1)).map (· + 1)

theorem sdBusyLoop_run (f : Byte) : ∀ (n : Nat) {avr : Avr}, Idle avr →
    sdBusyLoop f n avr = match polls f n avr.input with
      | none => (-1, avr.clocked n)
      | some k => (0, avr.clocked (k + 1))
  | 0, avr, _ => by rw [polls, clocked_zero]; rfl
  | n + 1, avr, h => by
      rw [sdBusyLoop, clock_run h, ite_run, polls]
      by_cases hc : f &&& pDo = avr.input 0 &&& pDo
      · rw [if_pos hc, if_pos hc]
        rfl
      · rw [if_neg hc, if_neg hc, sdBusyLoop_run f n (h.clocked 1)]
        have hin : (avr.clocked 1).input = fun i => avr.input (i + 1) := rfl
        rw [hin]
        cases polls f n fun i => avr.input (i + 1) with
        | none => exact congrArg _ ((clocked_clocked ..).trans (by rw [Nat.add_comm]))
        | some k => exact congrArg _ ((clocked_clocked ..).trans (by rw [Nat.add_comm 1]))

theorem sdBusy_run (f : Byte) {avr : Avr} (h : Idle avr) :
    sdBusy f avr = match polls f 0xffff avr.input with
      | none => (-1, avr.clocked 0xffff)
      | some k => (0, avr.clocked (k + 1)) :=
  sdBusyLoop_run f 0xffff h

/-- The number that so many readings of `PIN` add to `rc`, highest bit
first. -/
def bits : Nat → ULong32 → (Nat → Byte) → ULong32
  | 0, rc, _ => rc
  | n + 1, rc, input =>
      bits n (if input 0 &&& pDo ≠ 0 then rc <<< 1 ||| 1 else rc <<< 1) fun i => input (i + 1)

theorem sdInLoop_run : ∀ (n : Nat) (rc : ULong32) {avr : Avr}, Idle avr →
    sdInLoop n rc avr = (bits n rc avr.input, avr.clocked n)
  | 0, _, _, _ => by rw [clocked_zero]; rfl
  | n + 1, rc, avr, h => by
      rw [sdInLoop, clock_run h, sdInLoop_run n _ (h.clocked 1), clocked_clocked,
        Nat.add_comm 1 n]
      rfl

theorem sdIn_run (n : Nat) {avr : Avr} (h : Idle avr) :
    sdIn n avr = (bits n 0 avr.input, avr.clocked n) :=
  sdInLoop_run n 0 h

/-- A byte on the wire. -/
def wire (c : Byte) : List Bool :=
  [c.getLsbD 7, c.getLsbD 6, c.getLsbD 5, c.getLsbD 4, c.getLsbD 3, c.getLsbD 2, c.getLsbD 1,
    c.getLsbD 0]

/-- The driver after these bits went out. -/
def Avr.put (avr : Avr) (bs : List Bool) (di : Bool) : Avr :=
  { avr with ck := false, di := di, sent := avr.sent ++ bs }

theorem sdOutBit_run (c : Byte) (i : Nat) {avr : Avr} (h : avr.cs = false) :
    sdOutBit c i avr = ((), { avr.put [c.getLsbD i] (c.getLsbD i) with ck := true }) := by
  obtain ⟨buffer, crc, curBlk, ccs, ck, di, cs, input, sent⟩ := avr
  obtain rfl : cs = false := h
  rw [sdOutBit]
  cases c.getLsbD i <;> rfl

theorem sdOut_run (c : Byte) {avr : Avr} (h : avr.cs = false) :
    sdOut c avr = ((), avr.put (wire c) (c.getLsbD 0)) := by
  change (do
    sdOutBit c 7; sdOutBit c 6; sdOutBit c 5; sdOutBit c 4
    sdOutBit c 3; sdOutBit c 2; sdOutBit c 1; sdOutBit c 0
    pinLow .ck : AvrM Unit) avr = _
  simp only [bind_run, sdOutBit_run, Avr.put, h, List.append_assoc]
  rfl

/-! ## Commands -/

/-- The driver once these bytes of a command are out. -/
def Avr.commanded (avr : Avr) (bytes : List Byte) : Avr :=
  { avr with ck := false, di := true, cs := false, sent := avr.sent ++ bytes.flatMap wire }

theorem commanded_idle (avr : Avr) (bytes : List Byte) : Idle (avr.commanded bytes) := ⟨rfl, rfl⟩

/-- What a command gets for an answer, and after how many readings. -/
def reply (n : Nat) (input : Nat → Byte) : ULong32 × Nat :=
  match polls 0 0xffff input with
  | none => (0xffffffff, 0xffff)
  | some k => (bits n 0 fun i => input (i + (k + 1)), k + 1 + n)

theorem sdCmd_run (cmd arg0 arg1 arg2 arg3 crc : Byte) (avr : Avr) :
    sdCmd cmd arg0 arg1 arg2 arg3 crc avr =
      ((reply (replyBits cmd) avr.input).1,
        (avr.commanded [cmd, arg0, arg1, arg2, arg3, crc]).clocked
          (reply (replyBits cmd) avr.input).2) := by
  have hout : sdCmd cmd arg0 arg1 arg2 arg3 crc avr
      = (do if (← sdBusy 0) < 0 then return 0xffffffff else sdIn (replyBits cmd) : AvrM ULong32)
        (avr.commanded [cmd, arg0, arg1, arg2, arg3, crc]) := by
    simp only [sdCmd, bind_run, pinHigh_di_run, pinLow_cs_run, sdOut_run, Avr.put, Avr.commanded,
      List.append_assoc, List.flatMap_cons, List.flatMap_nil, List.append_nil]
  have hidle := commanded_idle avr [cmd, arg0, arg1, arg2, arg3, crc]
  rw [hout, bind_run, sdBusy_run 0 hidle, reply]
  have hin : (avr.commanded [cmd, arg0, arg1, arg2, arg3, crc]).input = avr.input := rfl
  rw [hin]
  cases polls 0 0xffff avr.input with
  | none => rfl
  | some k =>
      rw [ite_run, if_neg (by decide : ¬(0 : Int) < 0), sdIn_run _ (hidle.clocked (k + 1)),
        clocked_clocked]
      rfl

/-- The bytes of a command about a block. -/
def blockBytes (cmd : Byte) (ccs : Byte) (blkAddr : ULong32) : List Byte :=
  let blkAddr := if ccs ≠ 0 then blkAddr >>> 9 else blkAddr
  [cmd, (blkAddr >>> 24).setWidth 8, (blkAddr >>> 16).setWidth 8, (blkAddr >>> 8).setWidth 8,
    blkAddr.setWidth 8, 0]

theorem blockCmd_run {cmd : Byte} (hcmd : replyBits cmd = 7) (blkAddr : ULong32) (avr : Avr) :
    blockCmd cmd blkAddr avr = ((reply 7 avr.input).1,
      (avr.commanded (blockBytes cmd avr.ccs blkAddr)).clocked (reply 7 avr.input).2) := by
  rw [blockCmd, SdcardPins.getStatics_bind_run, sdCmd_run, hcmd]
  rfl

/-! ## What a fetch does -/

/-- The bytes that these readings of `PIN` make. -/
def received (input : Nat → Byte) : Nat → Byte := fun i =>
  (bits 8 0 fun j => input (j + 8 * i)).setWidth 8

theorem received_succ (input : Nat → Byte) (i : Nat) :
    received (fun j => input (j + 8)) i = received input (i + 1) := by
  simp only [received, Nat.mul_succ, Nat.add_assoc]

theorem receive_run : ∀ (n i : Nat) {avr : Avr}, Idle avr →
    receive i n avr
      = ((), { avr.clocked (8 * n) with buffer := splice avr.buffer (received avr.input) i n })
  | 0, i, avr, _ => by
      rw [Nat.mul_zero, clocked_zero, splice_zero]
      rfl
  | n + 1, i, avr, h => by
      have hbit : Idle { avr.clocked 8 with
          buffer := Function.update avr.buffer i (received avr.input 0) } := ⟨h.ck, h.cs⟩
      have hbyte : receive i (n + 1) avr = receive (i + 1) n { avr.clocked 8 with
          buffer := Function.update avr.buffer i (received avr.input 0) } := by
        rw [receive, bind_of_run (sdIn_run 8 h), SdcardPins.setStatics_bind_run]
        rfl
      have hrest : received (avr.clocked 8).input = fun j => received avr.input (j + 1) :=
        funext fun j => received_succ avr.input j
      rw [hbyte, receive_run n (i + 1) hbit, hrest, ← splice_cons]
      have hclock := clocked_clocked avr 8 (8 * n)
      rw [Nat.mul_succ, Nat.add_comm (8 * n) 8, ← hclock]
      rfl

/-- After how many readings of `PIN` the block begins, if the card takes
the command and says that the block comes. -/
def blockStart (input : Nat → Byte) : Option Nat :=
  if (reply 7 input).1 = 0 then
    (polls 0 0xffff fun i => input (i + (reply 7 input).2)).map ((reply 7 input).2 + 1 + ·)
  else none

/-- The driver once it has asked for a block. -/
def Avr.asked (avr : Avr) (blkAddr : ULong32) : Avr :=
  { avr with curBlk := blkAddr }.commanded (blockBytes 0x51 avr.ccs blkAddr)

/-- The two bytes behind a block. -/
def receivedCrc (input : Nat → Byte) : Word :=
  (bits 8 0 input <<< 8 ||| bits 8 0 fun i => input (i + 8)).setWidth 16

/-- A block and the two bytes behind it, with the clock left low. -/
theorem receive_block {avr : Avr} (h : Idle avr) :
    (do
      receive 0 512
      let rc ← sdIn 8
      let low ← sdIn 8
      setStatics fun st => { st with crc := (rc <<< 8 ||| low).setWidth 16 }
      pinLow .ck
      return 0 : AvrM Int) avr =
      (0, { avr.clocked 4112 with
        buffer := splice avr.buffer (received avr.input) 0 512
        crc := receivedCrc fun i => avr.input (i + 4096) }) := by
  have hblock : Idle { avr.clocked 4096 with
      buffer := splice avr.buffer (received avr.input) 0 512 } := ⟨h.ck, h.cs⟩
  rw [bind_of_run (receive_run 512 0 h), bind_of_run (sdIn_run 8 hblock),
    bind_of_run (sdIn_run 8 (hblock.clocked 8)), SdcardPins.setStatics_bind_run]
  have hclock : ((avr.clocked 4096).clocked 8).clocked 8 = avr.clocked 4112 := by
    rw [clocked_clocked, clocked_clocked]
  have hck : avr.ck = false := h.ck
  rw [← hclock, bind_of_run (pinLow_ck_run _), pure_run, ← hck]
  rfl

/-- The driver after a fetch that succeeded. -/
def Avr.loaded (avr : Avr) (blkAddr : ULong32) (start : Nat) : Avr :=
  { (avr.asked blkAddr).clocked (start + 4112) with
    buffer := splice avr.buffer (received fun i => avr.input (i + start)) 0 512
    crc := receivedCrc fun i => avr.input (i + (start + 4096)) }

theorem fetch_asks (blkAddr : ULong32) (avr : Avr) :
    fetch blkAddr avr = (do
      if (reply 7 avr.input).1 ≠ 0 then return -1
      else if (← sdBusy 0) < 0 then return -2
      else
        receive 0 512
        let rc ← sdIn 8
        let low ← sdIn 8
        setStatics fun st => { st with crc := (rc <<< 8 ||| low).setWidth 16 }
        pinLow .ck
        return 0 : AvrM Int) ((avr.asked blkAddr).clocked (reply 7 avr.input).2) := by
  rw [fetch, SdcardPins.setStatics_bind_run, bind_of_run (blockCmd_run (by decide) blkAddr _)]
  rfl

theorem fetch_rejected {avr : Avr} (h : (reply 7 avr.input).1 ≠ 0) (blkAddr : ULong32) :
    fetch blkAddr avr = (-1, (avr.asked blkAddr).clocked (reply 7 avr.input).2) := by
  rw [fetch_asks, ite_run, if_pos h, pure_run]

/-- A fetch that fails has changed the block number and not the buffer. -/
theorem fetch_refused {avr : Avr} (h : blockStart avr.input = none) (blkAddr : ULong32) :
    ∃ e n, fetch blkAddr avr = (e, (avr.asked blkAddr).clocked n) ∧ e < 0 := by
  have hidle : Idle (avr.asked blkAddr) := ⟨rfl, rfl⟩
  by_cases hrc : (reply 7 avr.input).1 = 0
  · rw [blockStart, if_pos hrc, Option.map_eq_none_iff] at h
    have hin : ((avr.asked blkAddr).clocked (reply 7 avr.input).2).input
        = fun i => avr.input (i + (reply 7 avr.input).2) := rfl
    rw [fetch_asks, ite_run, if_neg (not_not_intro hrc), bind_run,
      sdBusy_run 0 (hidle.clocked _), hin, h]
    refine ⟨-2, (reply 7 avr.input).2 + 0xffff, ?_, by decide⟩
    rw [← clocked_clocked]
    rfl
  · exact ⟨-1, _, fetch_rejected hrc blkAddr, by decide⟩

theorem fetch_loaded {avr : Avr} {start : Nat} (h : blockStart avr.input = some start)
    (blkAddr : ULong32) : fetch blkAddr avr = (0, avr.loaded blkAddr start) := by
  have hidle : Idle (avr.asked blkAddr) := ⟨rfl, rfl⟩
  rw [blockStart] at h
  split at h
  case isFalse => cases h
  case isTrue hrc =>
    obtain ⟨k, hk, rfl⟩ := Option.map_eq_some_iff.mp h
    have hin : ((avr.asked blkAddr).clocked (reply 7 avr.input).2).input
        = fun i => avr.input (i + (reply 7 avr.input).2) := rfl
    have hbusy : sdBusy 0 ((avr.asked blkAddr).clocked (reply 7 avr.input).2)
        = (0, (avr.asked blkAddr).clocked ((reply 7 avr.input).2 + 1 + k)) := by
      rw [sdBusy_run 0 (hidle.clocked _), hin, hk]
      exact congrArg _ ((clocked_clocked ..).trans (by rw [Nat.add_comm k 1, Nat.add_assoc]))
    rw [fetch_asks, ite_run, if_neg (not_not_intro hrc), bind_of_run hbusy, ite_run,
      if_neg (by decide : ¬(0 : Int) < 0), receive_block (hidle.clocked _), clocked_clocked]
    have hnext : (fun i => ((avr.asked blkAddr).clocked ((reply 7 avr.input).2 + 1 + k)).input
        (i + 4096)) = fun i => avr.input (i + ((reply 7 avr.input).2 + 1 + k + 4096)) :=
      funext fun i => congrArg avr.input (by omega)
    rw [hnext]
    rfl

/-! ## What a store does -/

theorem put_put (avr : Avr) (bs bs' : List Bool) (d d' : Bool) :
    (avr.put bs d).put bs' d' = avr.put (bs ++ bs') d' := by
  simp only [Avr.put, List.append_assoc]

theorem transmit_run : ∀ (n i : Nat) {avr : Avr}, Idle avr →
    ∃ d, transmit i n avr
      = ((), avr.put ((List.range' i n).flatMap fun j => wire (avr.buffer j)) d)
  | 0, i, avr, h => by
      obtain ⟨buffer, crc, curBlk, ccs, ck, di, cs, input, sent⟩ := avr
      obtain rfl : ck = false := h.ck
      refine ⟨di, ?_⟩
      simp [transmit, Avr.put, pure_run]
  | n + 1, i, avr, h => by
      have hput : Idle (avr.put (wire (avr.buffer i)) ((avr.buffer i).getLsbD 0)) :=
        ⟨rfl, h.cs⟩
      obtain ⟨d, hrest⟩ := transmit_run n (i + 1) hput
      refine ⟨d, ?_⟩
      rw [transmit, SdcardPins.getStatics_bind_run, bind_of_run (sdOut_run _ h.cs)]
      refine hrest.trans ?_
      rw [put_put, List.range'_succ, List.flatMap_cons]
      rfl

/-- The bits of a block: a blank, the token, the data and a dummy CRC. -/
def blockWire (buffer : Nat → Byte) : List Bool :=
  wire 0xff ++ wire 0xfe ++ ((List.range' 0 512).flatMap fun j => wire (buffer j))
    ++ wire 0xff ++ wire 0xff

theorem transmit_block {avr : Avr} (h : Idle avr) :
    (do sdOut 0xff; sdOut 0xfe; transmit 0 512; sdOut 0xff; sdOut 0xff : AvrM Unit) avr
      = ((), avr.put (blockWire avr.buffer) true) := by
  have hput : ∀ bs d, Idle (avr.put bs d) := fun _ _ => ⟨rfl, h.cs⟩
  obtain ⟨d, hdata⟩ := transmit_run 512 0 (hput (wire 0xff ++ wire 0xfe) ((0xfe : Byte).getLsbD 0))
  rw [bind_of_run (sdOut_run 0xff h.cs), bind_of_run (sdOut_run 0xfe (hput _ _).cs), put_put,
    bind_of_run hdata, put_put, bind_of_run (sdOut_run 0xff (hput _ _).cs), put_put,
    sdOut_run 0xff (hput _ _).cs, put_put]
  rfl

/-- What is left of `sdcard_store` once the block is out. -/
def storeEnd : AvrM Int := do
  if (← sdBusy 0) < 0 then return -3
  else
    let rc ← sdIn 4
    if (← sdBusy 0xff) < 0 then return -4
    else if rc ≠ 5 then return if rc ≠ 0 then -rc.toNat else -5
    else
      pinLow .ck
      return 0

/-- A program that only turns the clock. -/
def Clocks {α : Type} (x : AvrM α) : Prop :=
  ∀ avr, Idle avr → ∃ v n, x avr = (v, avr.clocked n)

theorem Clocks.pure {α : Type} (v : α) : Clocks (pure v : AvrM α) := fun avr _ =>
  ⟨v, 0, by rw [clocked_zero, pure_run]⟩

theorem Clocks.bind {α β : Type} {x : AvrM α} {k : α → AvrM β} (hx : Clocks x)
    (hk : ∀ v, Clocks (k v)) : Clocks (x >>= k) := by
  intro avr h
  obtain ⟨v, m, hfirst⟩ := hx avr h
  obtain ⟨w, n, hrest⟩ := hk v _ (h.clocked m)
  exact ⟨w, m + n, by rw [bind_of_run hfirst, hrest, clocked_clocked]⟩

theorem Clocks.ite {α : Type} {c : Prop} [Decidable c] {x y : AvrM α} (hx : Clocks x)
    (hy : Clocks y) : Clocks (if c then x else y) := by
  split
  · exact hx
  · exact hy

theorem sdBusy_clocks (f : Byte) : Clocks (sdBusy f) := by
  intro avr h
  rw [sdBusy_run f h]
  cases polls f 0xffff avr.input with
  | none => exact ⟨-1, _, rfl⟩
  | some k => exact ⟨0, _, rfl⟩

theorem sdIn_clocks (n : Nat) : Clocks (sdIn n) := fun _ h => ⟨_, n, sdIn_run n h⟩

theorem pinLow_clocks : Clocks (pinLow .ck) := by
  intro avr h
  refine ⟨(), 0, ?_⟩
  rw [clocked_zero, pinLow_ck_run, ← h.ck]

theorem storeEnd_clocks : Clocks storeEnd :=
  .bind (sdBusy_clocks 0) fun _ => .ite (.pure _) (.bind (sdIn_clocks 4) fun _ =>
    .bind (sdBusy_clocks 0xff) fun _ => .ite (.pure _) (.ite (.pure _)
      (.bind pinLow_clocks fun _ => .pure _)))

/-- The driver once it has offered a block. -/
def Avr.offered (avr : Avr) (blkAddr : ULong32) : Avr :=
  (avr.commanded (blockBytes 0x58 avr.ccs blkAddr)).clocked (reply 7 avr.input).2

theorem store_refused {avr : Avr} (h : (reply 7 avr.input).1 ≠ 0) (blkAddr : ULong32) :
    store blkAddr avr = (-1, avr.offered blkAddr) := by
  rw [store, bind_of_run (blockCmd_run (by decide) blkAddr avr), ite_run, if_pos h]
  rfl

/-- A card that takes the command gets the block, whatever it says to it. -/
theorem store_taken {avr : Avr} (h : (reply 7 avr.input).1 = 0) (blkAddr : ULong32) :
    ∃ e n, store blkAddr avr
      = (e, ((avr.offered blkAddr).put (blockWire avr.buffer) true).clocked n) := by
  have hidle : Idle (avr.offered blkAddr) := ⟨rfl, rfl⟩
  have hput : Idle ((avr.offered blkAddr).put (blockWire avr.buffer) true) := ⟨rfl, rfl⟩
  obtain ⟨e, n, hend⟩ := storeEnd_clocks _ hput
  refine ⟨e, n, ?_⟩
  have hblock := bind_of_run (transmit_block hidle) fun _ => storeEnd
  simp only [bind_assoc] at hblock
  rw [store, bind_of_run (blockCmd_run (by decide) blkAddr avr), ite_run,
    if_neg (not_not_intro h)]
  exact hblock.trans hend

end SdcardAvr

end CpMega88
