import CpMega88.Lib.SpiCard
import CpMega88.SdcardPins

/-!
# The card driver and a card

The driver of the AVR with an SD card on its pins. When the clock rises a
selected card takes the bit on DI and holds its own on DO until the clock
falls; then the next one is there. The card is as slow as it likes, as
long as no wait of the driver runs out (`Prompt`).

The driver's routines are followed down to the bits here: what a command
brings to the card (`sdCmd_wired`), and what comes back in between.
-/

namespace CpMega88

open Bytes Runs

namespace SdcardPins

open SpiCard (Card bitsOf byteBits number extend)

structure Wired where
  host : Statics
  /-- While the clock is high, the bit that the card holds. -/
  clock : Option Bool
  di : Bool
  cs : Bool
  /-- The other pins of the port. -/
  others : Byte
  card : Card

/-- The clock rises. -/
def Wired.rise (w : Wired) : Wired :=
  match w.clock with
  | some _ => w
  | none =>
    if w.cs then { w with clock := some true }
    else { w with clock := some (w.card.tick w.di).1, card := (w.card.tick w.di).2 }

/-- The level of DO; without a card there is the pull-up. -/
def Wired.out (w : Wired) : Bool :=
  match w.clock with
  | some b => b
  | none => w.cs || w.card.pending.headD true

/-- What the port reads with this level on DO. -/
def Wired.port (w : Wired) (b : Bool) : Byte := w.others &&& ~~~pDo ||| if b then pDo else 0

instance : Board Wired where
  pinHigh
    | .ck => modify Wired.rise
    | .di => modify fun w => { w with di := true }
    | .cs => modify fun w => { w with cs := true }
  pinLow
    | .ck => modify fun w => { w with clock := none }
    | .di => modify fun w => { w with di := false }
    | .cs => modify fun w => { w with cs := false }
  readPin := return (← get).port (← get).out
  statics := Wired.host
  withStatics w st := { w with host := st }

theorem port_do (w : Wired) (b : Bool) : w.port b &&& pDo = if b then pDo else 0 := by
  refine BitVec.eq_of_getLsbD_eq fun i hi => ?_
  cases b <;> cases hd : pDo.getLsbD i <;> simp [Wired.port, hd]

theorem port_ne (w : Wired) (b : Bool) : w.port b &&& pDo ≠ 0 ↔ b = true := by
  rw [port_do]
  cases b <;> decide

/-- The level that is waited for. -/
theorem port_eq (w : Wired) (v b : Bool) :
    (if v then 0xff else 0 : Byte) &&& pDo = w.port b &&& pDo ↔ b = v := by
  rw [port_do]
  cases v <;> cases b <;> decide

/-! ## Listening -/

/-- The card is selected, the clock low, and DI high. -/
structure Hears (w : Wired) : Prop where
  clock : w.clock = none
  cs : w.cs = false
  di : w.di = true

def Wired.withCard (w : Wired) (c : Card) : Wired := { w with card := c }

/-- The system after so many turns of the clock. -/
def Wired.listened (w : Wired) (n : Nat) : Wired := w.withCard (w.card.listen n).2

theorem Hears.withCard {w : Wired} (h : Hears w) (c : Card) : Hears (w.withCard c) :=
  ⟨h.clock, h.cs, h.di⟩

theorem listened_listened (w : Wired) (m n : Nat) :
    (w.listened m).listened n = w.listened (m + n) := by
  rw [Wired.listened, Wired.listened, Wired.listened, SpiCard.Card.listen_add]
  rfl

theorem clock_wired {α : Type} {w : Wired} (h : Hears w) (k : Byte → StateM Wired α) :
    (do pinHigh .ck; let c ← readPin; pinLow .ck; k c) w
      = k (w.port (w.card.tick true).1) (w.withCard (w.card.tick true).2) := by
  obtain ⟨host, clock, di, cs, others, card⟩ := w
  obtain ⟨rfl, rfl, rfl⟩ : clock = none ∧ cs = false ∧ di = true := ⟨h.clock, h.cs, h.di⟩
  rfl

/-- The card lets the line be for `k` turns and then puts this level on it. -/
def Says (c : Card) (v : Bool) (k : Nat) : Prop :=
  (c.listen (k + 1)).1 = List.replicate k (!v) ++ [v]

theorem sdBusyLoop_wired (v : Bool) {k n : Nat} {w : Wired} (h : Hears w) (hword : Says w.card v k)
    (hk : k < n) : sdBusyLoop (if v then 0xff else 0) n w = (0, w.listened (k + 1)) := by
  induction k generalizing n w with
  | zero =>
      obtain ⟨n, rfl⟩ := Nat.exists_eq_succ_of_ne_zero (Nat.ne_of_gt hk)
      have hlevel : (w.card.tick true).1 = v := by
        have hone : [(w.card.tick true).1] = [v] := hword
        exact List.singleton_inj.mp hone
      rw [sdBusyLoop, clock_wired h, ite_run, if_pos ((port_eq ..).mpr hlevel)]
      rfl
  | succ k ih =>
      obtain ⟨n, rfl⟩ := Nat.exists_eq_succ_of_ne_zero (Nat.ne_of_gt (Nat.zero_lt_of_lt hk))
      have hcons : (w.card.tick true).1 :: ((w.card.tick true).2.listen (k + 1)).1
          = (!v) :: (List.replicate k (!v) ++ [v]) := hword
      obtain ⟨hlevel, hrest⟩ := List.cons.inj hcons
      have hne : (w.card.tick true).1 ≠ v := by
        rw [hlevel]
        exact Bool.not_ne_self v
      rw [sdBusyLoop, clock_wired h, ite_run, if_neg (mt (port_eq ..).mp hne),
        ih (h.withCard _) hrest (Nat.lt_of_succ_lt_succ hk)]
      have hadd := listened_listened w 1 (k + 1)
      rw [Nat.add_comm 1] at hadd
      exact congrArg _ hadd

theorem shift_in (m : Nat) (b : Bool) :
    (if b then BitVec.ofNat 32 m <<< 1 ||| 1 else BitVec.ofNat 32 m <<< 1 : ULong32)
      = BitVec.ofNat 32 (2 * m + b.toNat) := by
  have hshift : BitVec.ofNat 32 m <<< 1 = BitVec.ofNat 32 (2 * m) := by
    apply BitVec.eq_of_toNat_eq
    simp only [BitVec.toNat_shiftLeft, BitVec.toNat_ofNat, Nat.shiftLeft_eq]
    omega
  cases b with
  | false => simpa using hshift
  | true =>
      have hor : BitVec.ofNat 32 (2 * m) ||| 1 = BitVec.ofNat 32 (2 * m) + 1 := by
        refine (BitVec.add_eq_or_of_and_eq_zero _ _ ?_).symm
        apply BitVec.eq_of_toNat_eq
        simp only [BitVec.toNat_and, BitVec.toNat_ofNat]
        rw [show (2 ^ 32 : Nat) = 2 * 2 ^ 31 by norm_num, Nat.mul_mod_mul_left]
        exact Nat.and_one_is_mod _ ▸ by omega
      rw [if_pos rfl, hshift, hor, BitVec.ofNat_add]
      rfl

theorem sdInLoop_wired : ∀ (n m : Nat) {w : Wired}, Hears w →
    sdInLoop n (BitVec.ofNat 32 m) w
      = (BitVec.ofNat 32 (extend m (w.card.listen n).1), w.listened n)
  | 0, _, _, _ => rfl
  | n + 1, m, w, h => by
      have hbit : (if w.port (w.card.tick true).1 &&& pDo ≠ 0 then BitVec.ofNat 32 m <<< 1 ||| 1
          else BitVec.ofNat 32 m <<< 1 : ULong32)
          = BitVec.ofNat 32 (2 * m + (w.card.tick true).1.toNat) := by
        rw [← shift_in]
        exact if_congr (port_ne _ _) rfl rfl
      rw [sdInLoop, clock_wired h, hbit, sdInLoop_wired n _ (h.withCard _)]
      have hadd := listened_listened w 1 n
      rw [Nat.add_comm 1] at hadd
      exact congrArg _ hadd

theorem sdIn_wired (n : Nat) {w : Wired} (h : Hears w) :
    sdIn n w = (BitVec.ofNat 32 (number (w.card.listen n).1), w.listened n) :=
  sdInLoop_wired n 0 h

/-! ## Speaking -/

/-- The system after these bits went out. -/
def Wired.put (w : Wired) (bs : List Bool) (di : Bool) : Wired :=
  { w with clock := none, di := di, card := w.card.takes bs }

theorem put_put (w : Wired) (bs bs' : List Bool) (d d' : Bool) :
    (w.put bs d).put bs' d' = w.put (bs ++ bs') d' := by
  simp only [Wired.put, SpiCard.Card.takes_append]

theorem sdOutBit_wired (c : Byte) (i : Nat) {w : Wired} (h : w.cs = false) :
    sdOutBit c i w = ((), { w.put [c.getLsbD i] (c.getLsbD i) with
      clock := some ((w.card.tick (c.getLsbD i)).1) }) := by
  obtain ⟨host, clock, di, cs, others, card⟩ := w
  obtain rfl : cs = false := h
  rw [sdOutBit]
  cases c.getLsbD i <;> rfl

theorem sdOut_wired (c : Byte) {w : Wired} (h : w.cs = false) :
    sdOut c w = ((), w.put (byteBits c) (c.getLsbD 0)) := by
  change (do
    sdOutBit c 7; sdOutBit c 6; sdOutBit c 5; sdOutBit c 4
    sdOutBit c 3; sdOutBit c 2; sdOutBit c 1; sdOutBit c 0
    pinLow .ck : StateM Wired Unit) w = _
  simp only [bind_run, sdOutBit_wired, Wired.put, h]
  rfl

/-! ## Commands -/

/-- The bits of a command. -/
def frame (cmd arg0 arg1 arg2 arg3 crc : Byte) : List Bool :=
  byteBits cmd ++ byteBits arg0 ++ byteBits arg1 ++ byteBits arg2 ++ byteBits arg3 ++ byteBits crc

/-- The system once these bits are out and DI is high again. -/
def Wired.told (w : Wired) (bs : List Bool) : Wired :=
  { w with clock := none, di := true, cs := false, card := w.card.takes bs }

theorem sdCmd_wired (cmd arg0 arg1 arg2 arg3 crc : Byte) (w : Wired) (hclock : w.clock = none) :
    sdCmd cmd arg0 arg1 arg2 arg3 crc w
      = (do if (← sdBusy 0) < 0 then return 0xffffffff else sdIn (replyBits cmd) :
          StateM Wired ULong32) (w.told (frame cmd arg0 arg1 arg2 arg3 crc)) := by
  obtain ⟨host, clock, di, cs, others, card⟩ := w
  obtain rfl : clock = none := hclock
  let w' : Wired := ⟨host, none, true, false, others, card⟩
  have hput : ∀ bs d, (w'.put bs d).cs = false := fun _ _ => rfl
  have hout : (do
      sdOut cmd; sdOut arg0; sdOut arg1; sdOut arg2; sdOut arg3; sdOut crc : StateM Wired Unit) w'
      = ((), w'.put (frame cmd arg0 arg1 arg2 arg3 crc) (crc.getLsbD 0)) := by
    rw [bind_of_run (sdOut_wired cmd rfl), bind_of_run (sdOut_wired arg0 (hput _ _)), put_put,
      bind_of_run (sdOut_wired arg1 (hput _ _)), put_put,
      bind_of_run (sdOut_wired arg2 (hput _ _)), put_put,
      bind_of_run (sdOut_wired arg3 (hput _ _)), put_put, sdOut_wired crc (hput _ _), put_put]
    rfl
  let k : StateM Wired ULong32 := do
    if (← sdBusy 0) < 0 then return 0xffffffff else sdIn (replyBits cmd)
  have hrest := bind_of_run hout fun _ => (do pinHigh .di; k)
  simp only [bind_assoc] at hrest
  have hpins : ∀ x : StateM Wired ULong32, (do pinHigh .di; pinLow .cs; x : StateM Wired ULong32)
      ⟨host, none, di, cs, others, card⟩ = x w' := fun _ => rfl
  have hdi : ∀ bs d, (do pinHigh .di; k : StateM Wired ULong32) (w'.put bs d)
      = k (w'.told bs) := fun _ _ => rfl
  rw [sdCmd, hpins]
  exact hrest.trans (hdi _ _)

end SdcardPins

end CpMega88
