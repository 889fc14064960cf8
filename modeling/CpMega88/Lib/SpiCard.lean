import CpMega88.Lib.Bytes
import Mathlib.Data.List.Basic
import Mathlib.Tactic.Ring

/-!
# A memory card on a serial bus

The card's side of the SD protocol in SPI mode, one turn of the clock at
a time (`Card.tick`): the card takes the bit on its input and drives one
on its output. What it has to say waits in `pending`, and while it speaks
it does not listen. Otherwise its output is high, and it collects a frame
from the start bit on: a command of 48 bits, or, once a write has been
announced, a block with its check word.

How long the card takes is its own affair: `lag` gives the delays to
come, in turns of the clock. Version 1 and version 2 cards, with byte or
with block addresses, are covered; `worn` names the blocks that cannot be
written any more.
-/

namespace SpiCard

open Bytes

/-! ## Numbers on the wire -/

/-- The lowest `n` bits of a number, highest first. -/
def bitsOf : Nat → Nat → List Bool
  | 0, _ => []
  | n + 1, x => x.testBit n :: bitsOf n x

/-- The number that bits make, highest first, behind those of `n`. -/
def extend (n : Nat) : List Bool → Nat
  | [] => n
  | b :: bs => extend (2 * n + b.toNat) bs

def number (bs : List Bool) : Nat := extend 0 bs

def byteBits (c : Byte) : List Bool := bitsOf 8 c.toNat

@[simp] theorem length_bitsOf (n x : Nat) : (bitsOf n x).length = n := by
  induction n with
  | zero => rfl
  | succ n ih => rw [bitsOf, List.length_cons, ih]

@[simp] theorem length_byteBits (c : Byte) : (byteBits c).length = 8 := length_bitsOf 8 _

theorem extend_append (n : Nat) (bs bs' : List Bool) :
    extend n (bs ++ bs') = extend (extend n bs) bs' := by
  induction bs generalizing n with
  | nil => rfl
  | cons b bs ih => exact ih _

theorem extend_bitsOf (m n x : Nat) : extend m (bitsOf n x) = m * 2 ^ n + x % 2 ^ n := by
  induction n generalizing m with
  | zero => simp [extend, bitsOf, Nat.mod_one]
  | succ n ih =>
      have hbit : (x.testBit n).toNat = x / 2 ^ n % 2 := Nat.toNat_testBit x n
      have hsplit : x % 2 ^ (n + 1) = x % 2 ^ n + 2 ^ n * (x / 2 ^ n % 2) := by
        rw [pow_succ, Nat.mod_mul]
      rw [bitsOf, extend, ih, hbit, hsplit, pow_succ]
      ring

theorem number_bitsOf (n x : Nat) : number (bitsOf n x) = x % 2 ^ n := by
  rw [number, extend_bitsOf, Nat.zero_mul, Nat.zero_add]

theorem number_byteBits (c : Byte) : number (byteBits c) = c.toNat := by
  rw [byteBits, number_bitsOf, Nat.mod_eq_of_lt c.isLt]

theorem bitsOf_add (m n x : Nat) : bitsOf (m + n) x = bitsOf m (x / 2 ^ n) ++ bitsOf n x := by
  induction m with
  | zero => rw [Nat.zero_add]; rfl
  | succ m ih =>
      rw [Nat.succ_add, bitsOf, bitsOf, ih, Nat.testBit_div_two_pow, Nat.add_comm m n,
        List.cons_append]

/-- Pieces of one length, laid one behind the other. -/
theorem flatMap_piece {f : Nat → List Bool} {k : Nat} (hf : ∀ i, (f i).length = k)
    (rest : List Bool) (n : Nat) : ∀ s i, i < n →
      (((List.range' s n).flatMap f ++ rest).drop (k * i)).take k = f (s + i) := by
  induction n with
  | zero => exact fun _ _ hi => absurd hi (Nat.not_lt_zero _)
  | succ n ih =>
      intro s i hi
      rw [List.range'_succ, List.flatMap_cons, List.append_assoc]
      cases i with
      | zero =>
          rw [Nat.mul_zero, List.drop_zero, Nat.add_zero]
          exact List.take_left' (hf s)
      | succ i =>
          have hskip : k * (i + 1) = (f s).length + k * i := by rw [hf, Nat.mul_succ, Nat.add_comm]
          rw [hskip, List.drop_length_add_append, ih (s + 1) i (Nat.lt_of_succ_lt_succ hi)]
          exact congrArg f (by omega)

theorem length_flatMap_pieces {f : Nat → List Bool} {k : Nat} (hf : ∀ i, (f i).length = k)
    (s n : Nat) : ((List.range' s n).flatMap f).length = k * n := by
  induction n generalizing s with
  | zero => rfl
  | succ n ih =>
      rw [List.range'_succ, List.flatMap_cons, List.length_append, hf, ih, Nat.mul_succ,
        Nat.add_comm]

/-! ## The card -/

/-- What a card that listens waits for. -/
inductive Mode where
  | command
  | data (n : Nat)
deriving DecidableEq

/-- The bits of a frame: a command, or the end of the token, a block and its
check word. -/
def Mode.length : Mode → Nat
  | .command => 48
  | .data _ => 4113

structure Card where
  version2 : Bool
  /-- Addresses count blocks, not bytes. -/
  highCapacity : Bool
  size : Nat
  block : Nat → Nat → Byte
  worn : Nat → Bool
  /-- The check word that it sends with a block. -/
  check : (Nat → Byte) → Word
  /-- The low 24 bits of its operating conditions. -/
  voltage : Nat
  /-- How often it is asked after a reset before it is ready. -/
  effort : Nat
  idle : Bool
  wakes : Nat
  /-- The next command is one of the application's. -/
  app : Bool
  mode : Mode
  taken : List Bool
  pending : List Bool
  lag : Nat → Nat

namespace Card

/-- Say this after a while. -/
def answer (c : Card) (bs : List Bool) : Card :=
  { c with
    pending := c.pending ++ List.replicate (c.lag 0) true ++ bs
    lag := fun i => c.lag (i + 1) }

/-- The response of one byte, with the idle bit. -/
def status (c : Card) (flags : Nat) : List Bool := bitsOf 8 (flags + c.idle.toNat)

def illegal : Nat := 0x04
def badCheck : Nat := 0x08
def badAddress : Nat := 0x20
def outOfRange : Nat := 0x40

/-- A step of the check of seven bits. -/
def crc7Step (r : BitVec 7) (b : Bool) : BitVec 7 := r <<< 1 ^^^ if r.msb ^^ b then 0x09#7 else 0#7

def crc7 (bs : List Bool) : Nat := (bs.foldl crc7Step 0#7).toNat

/-- Asked to be ready; `allowed` if the asker can address the card. -/
def wake (c : Card) (allowed : Bool) : Card :=
  let c' := { c with idle := !(c.wakes = 0 && allowed), wakes := c.wakes - 1 }
  c'.answer (c'.status 0)

/-- The block of an address, or what is wrong with it. -/
def locate (c : Card) (arg : Nat) : Except Nat Nat :=
  if c.highCapacity then if arg < c.size then .ok arg else .error outOfRange
  else if arg % 512 ≠ 0 then .error badAddress
  else if arg / 512 < c.size then .ok (arg / 512)
  else .error outOfRange

/-- The data of a block and its check word. -/
def dataBits (check : (Nat → Byte) → Word) (x : Nat → Byte) : List Bool :=
  ((List.range' 0 512).flatMap fun i => byteBits (x i)) ++ bitsOf 16 (check x).toNat

/-- The same behind the end of the token. -/
def blockBits (check : (Nat → Byte) → Word) (x : Nat → Byte) : List Bool :=
  false :: dataBits check x

/-- The operating conditions. -/
def ocr (c : Card) : Nat :=
  (!c.idle).toNat * 2 ^ 31 + (c.highCapacity && !c.idle).toNat * 2 ^ 30 + c.voltage % 2 ^ 24

/-- Do a command. -/
def execute (c : Card) (index arg : Nat) (checked : Bool) : Card :=
  let c' := { c with app := false }
  match index with
  | 0 =>
    let c' := { c' with idle := true, wakes := c.effort }
    c'.answer (c'.status (if checked then 0 else badCheck))
  | 1 => c'.wake true
  | 8 =>
    if !c.version2 then c'.answer (c'.status illegal)
    else if !checked then c'.answer (c'.status badCheck)
    else c'.answer (c'.status 0 ++ bitsOf 32 (arg % 2 ^ 12))
  | 17 =>
    if c.idle then c'.answer (c'.status illegal)
    else match c.locate arg with
      | .error e => c'.answer (c'.status e)
      | .ok n => (c'.answer (c'.status 0)).answer (blockBits c.check (c.block n))
  | 24 =>
    if c.idle then c'.answer (c'.status illegal)
    else match c.locate arg with
      | .error e => c'.answer (c'.status e)
      | .ok n => { c'.answer (c'.status 0) with mode := .data n }
  | 41 => if c.app then c'.wake (!c.highCapacity || arg.testBit 30) else c'.answer (c'.status illegal)
  | 55 => { c with app := true }.answer (c.status 0)
  | 58 => c'.answer (c'.status 0 ++ bitsOf 32 c.ocr)
  | _ => c'.answer (c'.status illegal)

/-- Six bits behind the start and the transmission bit, then the argument and
the check. -/
def command (c : Card) (frame : List Bool) : Card :=
  c.execute (number ((frame.drop 2).take 6)) (number ((frame.drop 8).take 32))
    (number ((frame.drop 40).take 7) = crc7 (frame.take 40))

/-- The block in a data frame. -/
def dataOf (frame : List Bool) : Nat → Byte := fun i =>
  BitVec.ofNat 8 (number (((frame.drop 1).drop (8 * i)).take 8))

/-- What it says to a block: taken or not. -/
def verdict (ok : Bool) : List Bool := false :: bitsOf 4 (if ok then 0b0101 else 0b1101)

/-- Hold the output low for a while. -/
def busy (c : Card) : Card :=
  { c with
    pending := c.pending ++ List.replicate (c.lag 0) false
    lag := fun i => c.lag (i + 1) }

/-- A block has come. -/
def program (c : Card) (n : Nat) (frame : List Bool) : Card :=
  let c' := { c with
    mode := .command
    block := if c.worn n then c.block else Function.update c.block n (dataOf frame) }
  (c'.answer (verdict (!c.worn n))).busy

def receive (c : Card) (frame : List Bool) : Card :=
  match c.mode with
  | .command => c.command frame
  | .data n => c.program n frame

/-- A bit of a frame. -/
def take (c : Card) (di : Bool) : Card :=
  if c.taken = [] ∧ di = true then c
  else if (c.taken ++ [di]).length = c.mode.length then
    { c with taken := [] }.receive (c.taken ++ [di])
  else { c with taken := c.taken ++ [di] }

/-- The card with this left to say. -/
def left (c : Card) (rest : List Bool) : Card := { c with pending := rest }

/-- One turn of the clock. -/
def tick (c : Card) (di : Bool) : Bool × Card :=
  match c.pending with
  | [] => (true, c.take di)
  | b :: rest => (b, c.left rest)

/-- The card after these bits. -/
def takes (c : Card) : List Bool → Card
  | [] => c
  | b :: bs => (c.tick b).2.takes bs

/-- The card after so many turns with its input high, and what it has said. -/
def listen : Nat → Card → List Bool × Card
  | 0, c => ([], c)
  | n + 1, c => ((c.tick true).1 :: (listen n (c.tick true).2).1, (listen n (c.tick true).2).2)

/-! ## Turns of the clock -/

variable {c : Card}

theorem tick_pending {b : Bool} {rest : List Bool} (h : c.pending = b :: rest) (di : Bool) :
    c.tick di = (b, c.left rest) := by
  rw [tick, h]

theorem tick_silent (h : c.pending = []) (di : Bool) : c.tick di = (true, c.take di) := by
  rw [tick, h]

theorem take_blank (h : c.taken = []) : c.take true = c := if_pos ⟨h, rfl⟩

/-- What waits is said. -/
theorem listen_pending (bs rest : List Bool) : ∀ {c : Card},
    c.pending = bs ++ rest → listen bs.length c = (bs, c.left rest) := by
  induction bs with
  | nil =>
      intro c h
      rw [List.nil_append] at h
      rw [left, ← h]
      rfl
  | cons b bs ih =>
      intro c h
      have hnext : c.pending = b :: (bs ++ rest) := h
      rw [List.length_cons, listen, tick_pending hnext, ih (c := c.left (bs ++ rest)) rfl]
      rfl

theorem listen_silent (h : c.pending = []) (ht : c.taken = []) (n : Nat) :
    listen n c = (List.replicate n true, c) := by
  induction n with
  | zero => rfl
  | succ n ih =>
      rw [listen, tick_silent h, take_blank ht, ih]
      rfl

theorem listen_add (m n : Nat) (c : Card) :
    listen (m + n) c = ((listen m c).1 ++ (listen n (listen m c).2).1,
      (listen n (listen m c).2).2) := by
  induction m generalizing c with
  | zero => rw [Nat.zero_add]; rfl
  | succ m ih =>
      rw [Nat.succ_add, listen, ih]
      rfl

theorem takes_append (c : Card) (bs bs' : List Bool) :
    c.takes (bs ++ bs') = (c.takes bs).takes bs' := by
  induction bs generalizing c with
  | nil => rfl
  | cons b bs ih => exact ih _

theorem takes_blank (h : c.pending = []) (ht : c.taken = []) (n : Nat) :
    c.takes (List.replicate n true) = c := by
  induction n with
  | zero => rfl
  | succ n ih => rw [List.replicate_succ, takes, tick_silent h, take_blank ht, ih]

/-- The rest of a frame. -/
theorem takes_rest {bs : List Bool} (hne : bs ≠ []) : ∀ {c : Card}, c.pending = [] →
    c.taken ≠ [] → (c.taken ++ bs).length = c.mode.length →
    c.takes bs = { c with taken := [] }.receive (c.taken ++ bs) := by
  induction bs with
  | nil => exact absurd rfl hne
  | cons b bs ih =>
      intro c h ht hlen
      rw [takes, tick_silent h, take, if_neg fun hno => ht hno.1]
      by_cases hlast : bs = []
      · subst hlast
        rw [if_pos hlen, takes]
      · have hpos : 0 < bs.length := List.length_pos_of_ne_nil hlast
        have hmore : (c.taken ++ [b]).length ≠ c.mode.length := by
          simp only [List.length_append, List.length_cons, List.length_nil] at hlen ⊢
          omega
        have happend : c.taken ++ b :: bs = (c.taken ++ [b]) ++ bs := by simp
        rw [if_neg hmore, ih hlast (c := { c with taken := c.taken ++ [b] }) h (by simp)
          (by rw [← happend]; exact hlen), happend]

/-- A card that listens takes a frame. -/
theorem takes_frame (h : c.pending = []) (ht : c.taken = []) {bs : List Bool}
    (hlen : bs.length + 1 = c.mode.length) :
    c.takes (false :: bs) = c.receive (false :: bs) := by
  have hpos : bs ≠ [] := by
    rintro rfl
    cases hmode : c.mode <;> rw [hmode] at hlen <;> cases hlen
  have hfirst : c.take false = { c with taken := [false] } := by
    have hmore : (c.taken ++ [false]).length ≠ c.mode.length := by
      have := List.length_pos_of_ne_nil hpos
      rw [ht, ← hlen, List.nil_append, List.length_singleton]
      omega
    rw [take, if_neg (by simp), if_neg hmore, ht, List.nil_append]
  have hrest := takes_rest hpos (c := { c with taken := [false] }) h (by simp)
    (by simpa [Nat.add_comm] using hlen)
  have hclean : { c with taken := [] } = c := by rw [← ht]
  rw [takes, tick_silent h, hfirst, hrest]
  exact congrArg (fun d => d.receive (false :: bs)) hclean

end Card

end SpiCard
