import CpMega88.Lib.BlockBuffer
import CpMega88.Sdcard
import CpMega88.SdcardAvr

/-!
# The buffer and its block number

Both card drivers keep one buffer and the number of the block in it, and
`sdcard_flush` stores the one under the other. `sdcard_posix.c` reads
into the buffer first and notes the number when all of the block has
come: a read that is cut short leaves two blocks mixed under the old
number. `sdcard_avr.c` notes the number first and asks the card then: a
command that fails leaves the old block under the new number.
-/

namespace CpMega88

open Bytes Runs Splice BlockBuffer

/-- A byte written at an offset, seen in the 512 of the buffer. -/
def editBlock (w : Word × Byte) (x : Fin 512 → Byte) : Fin 512 → Byte := fun i =>
  if i.val = w.1.toNat then w.2 else x i

theorem update_block (b : Nat → Byte) (w : Word × Byte) :
    (fun i : Fin 512 => Function.update b w.1.toNat w.2 i) = editBlock w fun i => b i := by
  funext i
  exact Function.update_apply b w.1.toNat w.2 i

namespace Sdcard

instance (card : Card) (blkAddr : ULong) : Decidable (FetchOk card blkAddr) :=
  decidable_of_iff
    (card.fp ≠ .none ∧ blkAddr &&& 0x1ff#64 = 0#64 ∧ ¬seekFails card.fault blkAddr
      ∧ freadCount card.fault card.image blkAddr = 512)
    ⟨fun h => ⟨h.1, h.2.1, h.2.2.1, h.2.2.2⟩, fun h => ⟨h.opened, h.aligned, h.seeks, h.whole⟩⟩

/-- A fetch that fails has spoiled the buffer if any byte has come. -/
def Card.outcome (card : Card) (blkAddr : ULong) : Outcome :=
  if FetchOk card blkAddr then .loaded
  else if card.delivered blkAddr = 0 then .kept
  else .spoiled

theorem outcome_loaded {card : Card} {blkAddr : ULong} (h : card.outcome blkAddr = .loaded) :
    FetchOk card blkAddr := by
  rw [Card.outcome] at h
  split_ifs at h with hok
  exact hok

theorem outcome_kept {card : Card} {blkAddr : ULong} (h : card.outcome blkAddr = .kept) :
    card.delivered blkAddr = 0 := by
  rw [Card.outcome] at h
  split_ifs at h with hok hnone
  exact hnone

/-- What a flush does to the file: the bytes that go there are the first
ones of the buffer, and it may be that none do. -/
theorem flush_image (card : Card) : (flush card).2.image
    = fwriteFirst card.image card.buffer card.curBlk (card.accepted card.curBlk) := by
  obtain ⟨e, faults, hrun⟩ := store_stored card.curBlk card
  rw [flush_run, hrun]
  rfl

theorem flush_buffer (card : Card) :
    (flush card).2.buffer = card.buffer ∧ (flush card).2.curBlk = card.curBlk := by
  obtain ⟨e, faults, hrun⟩ := store_stored card.curBlk card
  rw [flush_run, hrun]
  exact ⟨rfl, rfl⟩

/-- `sdcard_posix.c`. -/
def driver : Driver Card ULong (Fin 512 → Byte) (Word × Byte) where
  fetch blkAddr card := (fetch blkAddr card).2
  write w card := (write w.1 w.2 card).2
  flush card := (flush card).2
  buffer card := fun i => card.buffer i
  block card := card.curBlk
  edit := editBlock
  outcome := Card.outcome
  content card blkAddr := fun i => card.image.block blkAddr i
  Stores card := 0 < card.accepted card.curBlk
  buffer_loaded card blkAddr h := by
    rw [fetch_ok (outcome_loaded h)]
    exact funext fun i => loaded_buffer card blkAddr i.isLt
  buffer_kept card blkAddr h := by
    rw [fetch_buffer, outcome_kept h, splice_zero]
  buffer_write w card := update_block card.buffer w
  buffer_flush card := by rw [(flush_buffer card).1]

/-- Every flush that writes, be it one byte, finds what a fetch has loaded,
with no read cut short since. -/
def Unspoiled (calls : List (Call ULong (Word × Byte))) (card : Card) : Prop :=
  ∀ front back, calls = front ++ .flush :: back → driver.Stores (driver.run front card) →
    driver.held front card none ≠ none

theorem whole_of_unspoiled {calls : List (Call ULong (Word × Byte))} {card : Card}
    (h : Unspoiled calls card) : driver.Whole calls card := by
  refine Driver.whole_of_held (fun card blkAddr hout => ?_) (fun card blkAddr hout => ?_)
    (fun _ _ => rfl) (fun card => (flush_buffer card).2) h
  · have hrun := fetch_ok (outcome_loaded hout)
    exact congrArg (fun r => r.2.curBlk) hrun
  · have hno : ¬FetchOk card blkAddr := by
      intro hok
      have hloaded : card.outcome blkAddr = .loaded := if_pos hok
      have hout' : card.outcome blkAddr = .kept := hout
      rw [hloaded] at hout'
      cases hout'
    obtain ⟨e, count, faults, hrun, -, -⟩ := fetch_fails hno
    exact congrArg (fun r => r.2.curBlk) hrun

end Sdcard

namespace SdcardAvr

/-- A fetch that fails does so before the first byte. -/
def Avr.outcome (avr : Avr) : Outcome :=
  if (blockStart avr.input).isSome then .loaded else .kept

theorem outcome_loaded {avr : Avr} (h : avr.outcome = .loaded) :
    ∃ start, blockStart avr.input = some start := by
  rw [Avr.outcome] at h
  split_ifs at h with hsome
  exact Option.isSome_iff_exists.mp hsome

theorem outcome_kept {avr : Avr} (h : avr.outcome = .kept) : blockStart avr.input = none := by
  rw [Avr.outcome] at h
  split_ifs at h with hsome
  exact Option.not_isSome_iff_eq_none.mp hsome

/-- The card takes the command of a flush. -/
def Avr.Takes (avr : Avr) : Prop := (reply 7 avr.input).1 = 0

instance (avr : Avr) : Decidable avr.Takes :=
  inferInstanceAs (Decidable ((reply 7 avr.input).1 = 0))

theorem flush_run (avr : Avr) : flush avr = store avr.curBlk avr := rfl

/-- What a flush sends: the command, with clocks for the answer, and if the
card takes it the block. -/
theorem flush_sent (avr : Avr) :
    (avr.Takes → ∃ m n, (flush avr).2.sent = avr.sent
      ++ (blockBytes 0x58 avr.ccs avr.curBlk).flatMap wire ++ List.replicate m true
      ++ blockWire avr.buffer ++ List.replicate n true)
    ∧ (¬avr.Takes → ∃ m, (flush avr).2.sent = avr.sent
      ++ (blockBytes 0x58 avr.ccs avr.curBlk).flatMap wire ++ List.replicate m true) := by
  refine ⟨fun h => ?_, fun h => ?_⟩
  · obtain ⟨e, n, hrun⟩ := store_taken h avr.curBlk
    rw [flush_run, hrun]
    exact ⟨_, n, rfl⟩
  · rw [flush_run, store_refused h]
    exact ⟨_, rfl⟩

theorem flush_buffer (avr : Avr) :
    (flush avr).2.buffer = avr.buffer ∧ (flush avr).2.curBlk = avr.curBlk := by
  by_cases h : avr.Takes
  · obtain ⟨e, n, hrun⟩ := store_taken h avr.curBlk
    rw [flush_run, hrun]
    exact ⟨rfl, rfl⟩
  · rw [flush_run, store_refused h]
    exact ⟨rfl, rfl⟩

/-- The number is noted whatever the card says. -/
theorem fetch_curBlk (blkAddr : ULong32) (avr : Avr) : (fetch blkAddr avr).2.curBlk = blkAddr := by
  cases hstart : blockStart avr.input with
  | none =>
      obtain ⟨e, n, hrun, -⟩ := fetch_refused hstart blkAddr
      rw [hrun]
      rfl
  | some start =>
      rw [fetch_loaded hstart]
      rfl

/-- The block that comes after so many readings of `PIN`. -/
def Avr.comes (avr : Avr) (start : Nat) : Fin 512 → Byte := fun i =>
  received (fun j => avr.input (j + start)) i

/-- `sdcard_avr.c`. -/
def driver : Driver Avr ULong32 (Fin 512 → Byte) (Word × Byte) where
  fetch blkAddr avr := (fetch blkAddr avr).2
  write w avr := (write w.1 w.2 avr).2
  flush avr := (flush avr).2
  buffer avr := fun i => avr.buffer i
  block avr := avr.curBlk
  edit := editBlock
  outcome avr _ := avr.outcome
  content avr _ := avr.comes ((blockStart avr.input).getD 0)
  Stores := Avr.Takes
  buffer_loaded avr blkAddr h := by
    obtain ⟨start, hstart⟩ := outcome_loaded h
    rw [fetch_loaded hstart, hstart]
    exact funext fun i => splice_in (Nat.zero_le _) (by omega)
  buffer_kept avr blkAddr h := by
    obtain ⟨e, n, hrun, -⟩ := fetch_refused (outcome_kept h) blkAddr
    rw [hrun]
    rfl
  buffer_write w avr := update_block avr.buffer w
  buffer_flush avr := by rw [(flush_buffer avr).1]

theorem driver_loaded {avr : Avr} {start : Nat} (h : blockStart avr.input = some start)
    (blkAddr : ULong32) : driver.fetch blkAddr avr = avr.loaded blkAddr start :=
  congrArg Prod.snd (fetch_loaded h blkAddr)

theorem not_loaded_of_rejected {avr : Avr} (hno : (reply 7 avr.input).1 ≠ 0)
    (blkAddr : ULong32) : driver.outcome avr blkAddr ≠ .loaded := by
  intro hout
  obtain ⟨start, hstart⟩ : ∃ start, blockStart avr.input = some start := outcome_loaded hout
  rw [blockStart, if_neg hno] at hstart
  cases hstart

/-- A fetch that succeeds, and one that the card rejects. -/
theorem run_rejected {avr : Avr} {blkAddr : ULong32} {start : Nat}
    (h : blockStart avr.input = some start)
    (hno : (reply 7 (avr.loaded blkAddr start).input).1 ≠ 0) (blkAddr' : ULong32) :
    driver.run [.fetch blkAddr, .fetch blkAddr'] avr
      = ((avr.loaded blkAddr start).asked blkAddr').clocked
        (reply 7 (avr.loaded blkAddr start).input).2 := by
  have hfirst : driver.call (.fetch blkAddr) avr = avr.loaded blkAddr start :=
    driver_loaded h blkAddr
  have hsecond : driver.call (.fetch blkAddr') (avr.loaded blkAddr start)
      = ((avr.loaded blkAddr start).asked blkAddr').clocked
        (reply 7 (avr.loaded blkAddr start).input).2 :=
    congrArg Prod.snd (fetch_rejected hno blkAddr')
  rw [Driver.run, hfirst, Driver.run, hsecond, Driver.run]

/-- Every flush that writes finds a block loaded, and no other one asked
for since. -/
def Undisturbed (calls : List (Call ULong32 (Word × Byte))) (avr : Avr) : Prop :=
  ∀ front back, calls = front ++ .flush :: back → driver.Stores (driver.run front avr) →
    ∃ blkAddr, driver.held front avr none = some blkAddr ∧ lastAsked front none = some blkAddr

theorem whole_of_undisturbed {calls : List (Call ULong32 (Word × Byte))} {avr : Avr}
    (h : Undisturbed calls avr) : driver.Whole calls avr :=
  Driver.whole_of_asked (fun avr blkAddr => fetch_curBlk blkAddr avr) (fun _ _ => rfl)
    (fun avr => (flush_buffer avr).2) h

theorem held_after_write {avr : Avr} {start : Nat} (h : blockStart avr.input = some start)
    (blkAddr : ULong32) (w : Word × Byte) :
    driver.held [.fetch blkAddr, .write w] avr none = some blkAddr := by
  have hout : driver.outcome avr blkAddr = .loaded := if_pos (by rw [h]; rfl)
  rw [Driver.held, Driver.holds, hout]
  rfl

end SdcardAvr

/-- The one flush of three calls is their last. -/
theorem front_of_three {α ω : Type} {c c' : Call α ω} (hc : c ≠ .flush) (hc' : c' ≠ .flush)
    {front back : List (Call α ω)} (h : [c, c', .flush] = front ++ .flush :: back) :
    front = [c, c'] := by
  rcases front with - | ⟨x, - | ⟨y, front⟩⟩
  · exact absurd (List.cons.inj h).1 hc
  · exact absurd (List.cons.inj (List.cons.inj h).2).1 hc'
  · obtain ⟨rfl, htail⟩ := List.cons.inj h
    obtain ⟨rfl, hrest⟩ := List.cons.inj htail
    cases front with
    | nil => rfl
    | cons z front =>
        have hlen := congrArg List.length hrest
        simp at hlen

/-- Where the fetch behind the contents can stand in a run of two. -/
theorem LoadedAs.of_two {σ α γ ω : Type} {D : Driver σ α γ ω} {b b' a : α} {s : σ} {x : γ}
    (h : D.LoadedAs [.fetch b, .fetch b'] s a x) :
    (a = b ∧ x = D.content s b) ∨ (a = b' ∧ D.outcome (D.fetch b s) b' = .loaded) := by
  obtain ⟨front, back, hcs, hout, hx⟩ := h
  rcases front with - | ⟨y, - | ⟨z, front⟩⟩
  · obtain ⟨hb, rfl⟩ := List.cons.inj hcs
    obtain rfl : b = a := Call.fetch.inj hb
    exact Or.inl ⟨rfl, hx⟩
  · obtain ⟨rfl, htail⟩ := List.cons.inj hcs
    obtain rfl : b' = a := Call.fetch.inj (List.cons.inj htail).1
    exact Or.inr ⟨rfl, hout⟩
  · have hlen := congrArg List.length hcs
    simp at hlen

/-- A file of two blocks, of zeros and of ones. -/
def Sdcard.twoBlocks (faults : List Sdcard.Fault) : Sdcard.Card where
  image := { len := 1024, byte := fun i => if i < 512 then 0 else 1 }
  access := some true
  buffer := fun _ => 0
  curBlk := 0
  fp := some true
  faults := faults

/-- The driver of the AVR before its first command. -/
def SdcardAvr.fresh (input : Nat → Byte) : SdcardAvr.Avr where
  buffer := fun _ => 0
  crc := 0
  curBlk := 0
  ccs := 0
  ck := false
  di := false
  cs := true
  input := input
  sent := []

/-- A card that answers at once, with zeros, and rejects its second
command. -/
def SdcardAvr.rejecting : Nat → Byte := fun n => if n = 4122 then 0x10 else 0

/-! ## When they stay together -/

/-- With the driver for files, what a flush stores, or the part of it that
is stored, was loaded from there unless the last read to bring anything
was cut short. With the driver of the AVR it was unless the last block
asked for is not the last one loaded. -/
theorem paired_when (calls : List (Call ULong (Word × Byte))) (card : Sdcard.Card)
    (calls' : List (Call SdcardAvr.ULong32 (Word × Byte))) (avr : SdcardAvr.Avr) :
    (Sdcard.Unspoiled calls card → Sdcard.driver.Paired calls card)
    ∧ (SdcardAvr.Undisturbed calls' avr → SdcardAvr.driver.Paired calls' avr) := by
  refine ⟨fun h => ?_, fun h => ?_⟩
  · exact Sdcard.driver.paired_of_whole (Sdcard.whole_of_unspoiled h)
  · exact SdcardAvr.driver.paired_of_whole (SdcardAvr.whole_of_undisturbed h)

theorem paired_when_clear :
    Sdcard.driver.Paired [.fetch 0, .write (3, 7), .flush] (Sdcard.twoBlocks [])
    ∧ SdcardAvr.driver.Paired [.fetch 512, .write (3, 7), .flush]
      (SdcardAvr.fresh fun _ => 0) := by
  refine ⟨(paired_when _ _ [] (SdcardAvr.fresh fun _ => 0)).1 fun front back h _ => ?_,
    (paired_when [] (Sdcard.twoBlocks []) _ _).2 fun front back h _ => ?_⟩
  · rw [front_of_three (by simp) (by simp) h]
    decide +kernel
  · rw [front_of_three (by simp) (by simp) h]
    have hstart : SdcardAvr.blockStart (fun _ => 0) = some 9 := by decide +kernel
    exact ⟨512, SdcardAvr.held_after_write hstart 512 (3, 7), rfl⟩

/-- The second block is read with one byte of it coming, or asked for in
vain. What is flushed then is no block of the file, or the first block to
the place of the second. -/
theorem pairing_broken :
    ¬Sdcard.driver.Paired [.fetch 0, .fetch 512, .flush] (Sdcard.twoBlocks [.none, .short 1])
    ∧ ¬SdcardAvr.driver.Paired [.fetch 0, .fetch 512, .flush]
      (SdcardAvr.fresh SdcardAvr.rejecting) := by
  refine ⟨fun h => ?_, fun h => ?_⟩
  · have hstores : Sdcard.driver.Stores (Sdcard.driver.run [.fetch 0, .fetch 512]
        (Sdcard.twoBlocks [.none, .short 1])) := by
      show 0 < Sdcard.Card.accepted _ _
      decide +kernel
    rcases LoadedAs.of_two (h [.fetch 0, .fetch 512] [] rfl hstores) with ⟨-, hx⟩ | ⟨hb, -⟩
    · exact absurd (congrFun hx 0) (by decide +kernel)
    · exact absurd hb (by decide +kernel)
  · have hstart : SdcardAvr.blockStart SdcardAvr.rejecting = some 9 := by decide +kernel
    have hno : (SdcardAvr.reply 7 (SdcardAvr.Avr.loaded
        (SdcardAvr.fresh SdcardAvr.rejecting) 0 9).input).1 ≠ 0 := by decide +kernel
    have hinput : SdcardAvr.blockStart (SdcardAvr.fresh SdcardAvr.rejecting).input = some 9 :=
      hstart
    have hrun := SdcardAvr.run_rejected hinput hno 512
    have htakes : SdcardAvr.Avr.Takes ((((SdcardAvr.fresh SdcardAvr.rejecting).loaded 0
        9).asked 512).clocked
          (SdcardAvr.reply 7 ((SdcardAvr.fresh SdcardAvr.rejecting).loaded 0 9).input).2) := by
      decide +kernel
    rw [← hrun] at htakes
    rcases LoadedAs.of_two (h [.fetch 0, .fetch 512] [] rfl htakes) with ⟨hb, -⟩ | ⟨-, hout⟩
    · rw [hrun] at hb
      exact absurd hb (by decide +kernel)
    · rw [SdcardAvr.driver_loaded hinput 0] at hout
      exact SdcardAvr.not_loaded_of_rejected hno 512 hout

end CpMega88
