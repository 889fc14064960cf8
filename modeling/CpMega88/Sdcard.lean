import CpMega88.Lib.Bytes
import CpMega88.Lib.Runs
import CpMega88.Lib.Splice

/-!
# The card driver

`sdcard_posix.c` and `sdcard_base.c`: the card is a file, `sdcard.img`,
read and written in blocks of 512 bytes through one static buffer.

What stdio does with a call is decided by the file and by a list of
faults, one for each `fseek` and the transfer behind it; once the list is
used up everything works. A read stops at the end of the file or where
its fault says, and what it has read by then is in the buffer. A write
stops where its fault says as well, and what it has written by then is in
the file, which grows if need be.
-/

namespace CpMega88

open Bytes Runs Splice

namespace Sdcard

/-- What goes wrong in one call: nothing, `fseek`, or the transfer, which
ends early after `n` bytes. -/
inductive Fault where
  | none
  | seek
  | short (n : Fin 512)
deriving DecidableEq

/-- The contents of `sdcard.img`. -/
structure Image where
  len : Nat
  byte : Nat → Byte

/-- The bytes from an address on. -/
def Image.block (image : Image) (blkAddr : ULong) : Nat → Byte := fun i =>
  image.byte (blkAddr.toNat + i)

structure Card where
  image : Image
  /-- What `fopen` finds: no file, one for reading only, or one for both. -/
  access : Option Bool
  /-- The 512 bytes of `buffer`; the rest is what lies behind them. -/
  buffer : Nat → Byte
  curBlk : ULong
  /-- The mode `fp` is open in, if it is. -/
  fp : Option Bool
  faults : List Fault

/-- The next fault in line. -/
def Card.fault (card : Card) : Fault := card.faults.headD .none

abbrev CardM := StateM Card

def init : CardM Unit := modify fun card => { card with curBlk := 0, fp := .none }

def openCard : CardM Int := do
  modify fun card => { card with fp := card.access }
  return if (← get).fp = .none then -1 else 0

def nextFault : CardM Fault := do
  let fault := (← get).fault
  modify fun card => { card with faults := card.faults.tail }
  return fault

/-- `fseek` takes a signed `long`. -/
def seekFails (fault : Fault) (blkAddr : ULong) : Prop :=
  fault = .seek ∨ 2 ^ 63 ≤ blkAddr.toNat

instance (fault : Fault) (blkAddr : ULong) : Decidable (seekFails fault blkAddr) :=
  inferInstanceAs (Decidable (_ ∨ _))

/-- How many bytes `fread` delivers from an offset. -/
def freadCount (fault : Fault) (image : Image) (blkAddr : ULong) : Nat :=
  match fault with
  | .short n => min n (min 512 (image.len - blkAddr.toNat))
  | _ => min 512 (image.len - blkAddr.toNat)

/-- How many bytes of a block can be written. -/
def Fault.accepts : Fault → Nat
  | .none => 512
  | .seek => 0
  | .short n => n

/-- The bytes of the file with what lies between its end and `pos`, which
reads as zeros. -/
def Image.reaching (image : Image) (pos : Nat) : Nat → Byte := fun i =>
  if image.len ≤ i ∧ i < pos then 0 else image.byte i

/-- The file after `fwrite` has taken `count` bytes. -/
def fwriteFirst (image : Image) (buffer : Nat → Byte) (blkAddr : ULong) (count : Nat) : Image :=
  if count = 0 then image
  else {
    len := max image.len (blkAddr.toNat + count)
    byte := splice (image.reaching blkAddr.toNat) buffer blkAddr.toNat count }

/-- The file after `fwrite` of a whole block. -/
def fwriteImage (image : Image) (buffer : Nat → Byte) (blkAddr : ULong) : Image where
  len := max image.len (blkAddr.toNat + 512)
  byte := splice (image.reaching blkAddr.toNat) buffer blkAddr.toNat 512

/-- `sdcard_fetch`. -/
def fetch (blkAddr : ULong) : CardM Int := do
  if (← get).fp = .none then return -1
  else if blkAddr &&& 0x1ff#64 ≠ 0#64 then return -2
  else
    let fault ← nextFault
    if seekFails fault blkAddr then return -3
    else
      let image := (← get).image
      let count := freadCount fault image blkAddr
      modify fun card => { card with buffer := splice card.buffer (image.block blkAddr) 0 count }
      if count ≠ 512 then return -4
      else
        modify fun card => { card with curBlk := blkAddr }
        return 0

/-- `sdcard_store`. -/
def store (blkAddr : ULong) : CardM Int := do
  let fp := (← get).fp
  if fp = .none then return -1
  else if blkAddr &&& 0x1ff#64 ≠ 0#64 then return -2
  else
    let fault ← nextFault
    if seekFails fault blkAddr then return -3
    else
      let count := if fp = some true then fault.accepts else 0
      modify fun card => { card with image := fwriteFirst card.image card.buffer blkAddr count }
      if count ≠ 512 then return -4 else return 0

def flush : CardM Int := do store (← get).curBlk

def crc : Word := 0xffff

def read (offset : Word) : CardM Byte := return (← get).buffer offset.toNat

def write (offset : Word) (data : Byte) : CardM Unit :=
  modify fun card => { card with buffer := Function.update card.buffer offset.toNat data }

/-! ## Block addresses -/

theorem toNat_and_1ff (x : ULong) : (x &&& 0x1ff#64).toNat = x.toNat % 512 :=
  (BitVec.toNat_and ..).trans (Nat.and_two_pow_sub_one_eq_mod x.toNat 9)

theorem aligned_iff (x : ULong) : x &&& 0x1ff#64 = 0#64 ↔ x.toNat % 512 = 0 := by
  rw [← BitVec.toNat_inj, toNat_and_1ff]
  rfl

/-- The mask the FAT and disk code cut a block address with is 32 bits
wide. -/
theorem toNat_and_mask (x : ULong) :
    (x &&& 0xfffffe00#64).toNat = x.toNat % 2 ^ 32 / 512 * 512 := by
  have hdiv : (x.toNat &&& 0xfffffe00) / 2 ^ 9 = x.toNat / 2 ^ 9 % 2 ^ 23 := by
    rw [Nat.and_div_two_pow]
    exact Nat.and_two_pow_sub_one_eq_mod _ 23
  have hmod : (x.toNat &&& 0xfffffe00) % 2 ^ 9 = 0 := by
    rw [Nat.and_mod_two_pow]
    exact Nat.and_zero _
  have hand : (x &&& 0xfffffe00#64).toNat = x.toNat &&& 0xfffffe00 := BitVec.toNat_and ..
  omega

/-! ## A card that works -/

theorem fault_of_quiet {card : Card} (h : card.faults = []) : card.fault = .none := by
  rw [Card.fault, h]
  rfl

theorem tail_of_quiet {card : Card} (h : card.faults = []) : card.faults.tail = [] := by
  rw [h]
  rfl

theorem seeks_of_none {fault : Fault} {blkAddr : ULong} (hfault : fault = .none)
    (hnear : blkAddr.toNat < 2 ^ 63) : ¬seekFails fault blkAddr := by
  rintro (hseek | hfar)
  · exact Fault.noConfusion (hfault.symm.trans hseek)
  · exact absurd hnear (not_lt.mpr hfar)

/-! ## What a fetch does -/

theorem freadCount_le (fault : Fault) (image : Image) (blkAddr : ULong) :
    freadCount fault image blkAddr ≤ min 512 (image.len - blkAddr.toNat) := by
  cases fault with
  | short n => exact min_le_right _ _
  | none | seek => exact le_rfl

/-- A fetch of this block would succeed. -/
structure FetchOk (card : Card) (blkAddr : ULong) : Prop where
  opened : card.fp ≠ .none
  aligned : blkAddr &&& 0x1ff#64 = 0#64
  seeks : ¬seekFails card.fault blkAddr
  whole : freadCount card.fault card.image blkAddr = 512

/-- The card after a read that delivered `count` bytes. -/
def Card.cut (card : Card) (blkAddr : ULong) (count : Nat) (faults : List Fault) : Card :=
  { card with
    buffer := splice card.buffer (card.image.block blkAddr) 0 count
    faults := faults }

/-- The card after a fetch that succeeded. -/
def Card.loaded (card : Card) (blkAddr : ULong) : Card :=
  { card.cut blkAddr 512 card.faults.tail with curBlk := blkAddr }

theorem Card.cut_zero (card : Card) (blkAddr : ULong) (faults : List Fault) :
    card.cut blkAddr 0 faults = { card with faults := faults } := by
  rw [Card.cut, splice_zero]

/-- The four ways `sdcard_fetch` fails, and the one it does not. -/
theorem fetch_run (blkAddr : ULong) (card : Card) :
    fetch blkAddr card =
      if card.fp = .none then (-1, card)
      else if blkAddr &&& 0x1ff#64 ≠ 0#64 then (-2, card)
      else if seekFails card.fault blkAddr then (-3, card.cut blkAddr 0 card.faults.tail)
      else if freadCount card.fault card.image blkAddr ≠ 512 then
        (-4, card.cut blkAddr (freadCount card.fault card.image blkAddr) card.faults.tail)
      else (0, { card.cut blkAddr (freadCount card.fault card.image blkAddr) card.faults.tail with
        curBlk := blkAddr }) := by
  simp only [fetch, nextFault, bind_assoc, get_bind_run, modify_bind_run, pure_bind, pure_run,
    ite_run, Card.cut_zero]
  rfl

theorem fetch_ok {card : Card} {blkAddr : ULong} (h : FetchOk card blkAddr) :
    fetch blkAddr card = (0, card.loaded blkAddr) := by
  rw [fetch_run, if_neg h.opened, if_neg (not_not_intro h.aligned), if_neg h.seeks,
    if_neg (not_not_intro h.whole), h.whole, Card.loaded]

/-- A fetch that fails says so, keeps the number of the block fetched
before, and may leave part of the block in the buffer. -/
theorem fetch_fails {card : Card} {blkAddr : ULong} (h : ¬FetchOk card blkAddr) :
    ∃ e count faults, fetch blkAddr card = (e, card.cut blkAddr count faults) ∧ e < 0
      ∧ count ≤ 512 := by
  rw [fetch_run]
  split_ifs with h1 h2 h3 h4
  · exact ⟨-1, 0, card.faults, by rw [Card.cut_zero], by decide, by decide⟩
  · exact ⟨-2, 0, card.faults, by rw [Card.cut_zero], by decide, by decide⟩
  · exact ⟨-3, 0, card.faults.tail, rfl, by decide, by decide⟩
  · exact ⟨-4, _, card.faults.tail, rfl, by decide,
      (freadCount_le _ _ _).trans (min_le_left _ _)⟩
  · exact absurd ⟨h1, not_not.mp h2, h3, not_not.mp h4⟩ h

theorem fetch_iff (card : Card) (blkAddr : ULong) :
    (fetch blkAddr card).1 = 0 ↔ FetchOk card blkAddr := by
  constructor
  · intro h
    by_contra hno
    obtain ⟨e, count, faults, hrun, he, -⟩ := fetch_fails hno
    rw [hrun] at h
    exact absurd h (ne_of_lt he)
  · intro h
    rw [fetch_ok h]

theorem fetchOk_of_not_neg {card : Card} {blkAddr : ULong} (h : ¬(fetch blkAddr card).1 < 0) :
    FetchOk card blkAddr := by
  by_contra hno
  obtain ⟨e, count, faults, hrun, he, -⟩ := fetch_fails hno
  rw [hrun] at h
  exact h he

/-- A card whose buffer, block number and faults have moved on. -/
def Moved (card card' : Card) : Prop :=
  ∃ b k fs, (∀ i, 512 ≤ i → b i = card.buffer i)
    ∧ card' = { card with buffer := b, curBlk := k, faults := fs }

theorem Moved.refl (card : Card) : Moved card card := ⟨_, _, _, fun _ _ => rfl, rfl⟩

theorem Moved.trans {card card' card'' : Card} (h : Moved card card') (h' : Moved card' card'') :
    Moved card card'' := by
  obtain ⟨b, k, fs, hb, rfl⟩ := h
  obtain ⟨b', k', fs', hb', rfl⟩ := h'
  exact ⟨b', k', fs', fun i hi => (hb' i hi).trans (hb i hi), rfl⟩

theorem Moved.image {card card' : Card} (h : Moved card card') : card'.image = card.image := by
  obtain ⟨b, k, fs, -, rfl⟩ := h
  rfl

theorem Moved.fp {card card' : Card} (h : Moved card card') : card'.fp = card.fp := by
  obtain ⟨b, k, fs, -, rfl⟩ := h
  rfl

theorem loaded_buffer (card : Card) (blkAddr : ULong) {i : Nat} (h : i < 512) :
    (card.loaded blkAddr).buffer i = card.image.block blkAddr i :=
  splice_in (Nat.zero_le i) (by omega)

theorem cut_moved (card : Card) (blkAddr : ULong) {count : Nat} (hcount : count ≤ 512)
    (faults : List Fault) : Moved card (card.cut blkAddr count faults) :=
  ⟨_, _, _, fun _ hi => splice_out (by omega), rfl⟩

theorem loaded_moved (card : Card) (blkAddr : ULong) : Moved card (card.loaded blkAddr) :=
  ⟨_, _, _, fun _ hi => splice_out (by omega), rfl⟩

theorem fetch_moved (card : Card) (blkAddr : ULong) : Moved card (fetch blkAddr card).2 := by
  by_cases h : FetchOk card blkAddr
  · rw [fetch_ok h]
    exact loaded_moved card blkAddr
  · obtain ⟨e, count, faults, hrun, -, hcount⟩ := fetch_fails h
    rw [hrun]
    exact cut_moved card blkAddr hcount faults

/-- How many bytes a fetch brings into the buffer. -/
def Card.delivered (card : Card) (blkAddr : ULong) : Nat :=
  if card.fp = .none ∨ blkAddr &&& 0x1ff#64 ≠ 0#64 ∨ seekFails card.fault blkAddr then 0
  else freadCount card.fault card.image blkAddr

theorem fetch_buffer (card : Card) (blkAddr : ULong) : (fetch blkAddr card).2.buffer
    = splice card.buffer (card.image.block blkAddr) 0 (card.delivered blkAddr) := by
  rw [fetch_run, Card.delivered]
  split_ifs with h1 h2 h3 h4 h5 h6 <;> simp_all [Card.cut, splice_zero]

/-- A block that can be read: aligned, and whole within the file. -/
structure Image.Holds (image : Image) (blkAddr : ULong) : Prop where
  aligned : blkAddr &&& 0x1ff#64 = 0#64
  seeks : blkAddr.toNat < 2 ^ 63
  inside : blkAddr.toNat + 512 ≤ image.len

theorem FetchOk.holds {card : Card} {blkAddr : ULong} (h : FetchOk card blkAddr) :
    card.image.Holds blkAddr where
  aligned := h.aligned
  seeks := not_le.mp (mt Or.inr h.seeks)
  inside := by
    have := freadCount_le card.fault card.image blkAddr
    have := h.whole
    omega

theorem Image.Holds.fetchOk {card : Card} {blkAddr : ULong} (h : card.image.Holds blkAddr)
    (hfp : card.fp ≠ .none) (hfault : card.fault = .none) : FetchOk card blkAddr where
  opened := hfp
  aligned := h.aligned
  seeks := seeks_of_none hfault h.seeks
  whole := by
    have hinside := h.inside
    have hcount : freadCount .none card.image blkAddr
        = min 512 (card.image.len - blkAddr.toNat) := rfl
    rw [hfault, hcount]
    omega

/-! ## What a write does to the file -/

theorem Fault.accepts_le (fault : Fault) : fault.accepts ≤ 512 := by
  cases fault with
  | none => exact le_rfl
  | seek => exact Nat.zero_le _
  | short n => exact n.isLt.le

theorem Fault.accepts_eq {fault : Fault} : fault.accepts = 512 ↔ fault = .none := by
  cases fault with
  | none => exact iff_of_true rfl rfl
  | seek => exact iff_of_false (by decide) Fault.noConfusion
  | short n => exact iff_of_false n.isLt.ne Fault.noConfusion

section Fwrite

variable {image : Image} {buffer : Nat → Byte} {blkAddr : ULong} {count i : Nat}

theorem reaching_of_lt {pos : Nat} (h : i < image.len) : image.reaching pos i = image.byte i :=
  if_neg fun hi => absurd h (not_lt.mpr hi.1)

theorem fwriteFirst_zero : fwriteFirst image buffer blkAddr 0 = image := if_pos rfl

theorem fwriteFirst_pos (h : 0 < count) : fwriteFirst image buffer blkAddr count = {
    len := max image.len (blkAddr.toNat + count)
    byte := splice (image.reaching blkAddr.toNat) buffer blkAddr.toNat count } :=
  if_neg (Nat.ne_of_gt h)

theorem fwriteFirst_block : fwriteFirst image buffer blkAddr 512 = fwriteImage image buffer blkAddr :=
  fwriteFirst_pos (by decide)

theorem fwriteFirst_len (h : blkAddr.toNat + count ≤ image.len) :
    (fwriteFirst image buffer blkAddr count).len = image.len := by
  rcases Nat.eq_zero_or_pos count with rfl | hpos
  · rw [fwriteFirst_zero]
  · rw [fwriteFirst_pos hpos]
    exact max_eq_left h

theorem fwriteFirst_add (h : i < count) :
    (fwriteFirst image buffer blkAddr count).byte (blkAddr.toNat + i) = buffer i := by
  rw [fwriteFirst_pos (Nat.zero_lt_of_lt h)]
  exact splice_add h

theorem fwriteFirst_out (hout : i < blkAddr.toNat ∨ blkAddr.toNat + count ≤ i)
    (hlen : i < image.len) : (fwriteFirst image buffer blkAddr count).byte i = image.byte i := by
  rcases Nat.eq_zero_or_pos count with rfl | hpos
  · rw [fwriteFirst_zero]
  · rw [fwriteFirst_pos hpos]
    exact (splice_out hout).trans (reaching_of_lt hlen)

theorem fwriteImage_add (h : i < 512) :
    (fwriteImage image buffer blkAddr).byte (blkAddr.toNat + i) = buffer i := by
  rw [← fwriteFirst_block, fwriteFirst_add h]

theorem fwriteImage_out (hout : i < blkAddr.toNat ∨ blkAddr.toNat + 512 ≤ i)
    (hlen : i < image.len) : (fwriteImage image buffer blkAddr).byte i = image.byte i := by
  rw [← fwriteFirst_block, fwriteFirst_out hout hlen]

/-- Writing what is there already changes nothing. -/
theorem fwriteFirst_eq_iff : fwriteFirst image buffer blkAddr count = image
    ↔ count = 0 ∨ blkAddr.toNat + count ≤ image.len
      ∧ ∀ i < count, image.byte (blkAddr.toNat + i) = buffer i := by
  rcases Nat.eq_zero_or_pos count with rfl | hpos
  · exact iff_of_true fwriteFirst_zero (.inl rfl)
  constructor
  · intro h
    refine .inr ⟨?_, fun i hi => ?_⟩
    · have hlen := congrArg Image.len h
      rw [fwriteFirst_pos hpos] at hlen
      exact max_eq_left_iff.mp hlen
    · have hbyte : (fwriteFirst image buffer blkAddr count).byte (blkAddr.toNat + i) = buffer i :=
        fwriteFirst_add hi
      rw [h] at hbyte
      exact hbyte
  · rintro (hzero | ⟨hlen, hsame⟩)
    · exact absurd hzero (Nat.ne_of_gt hpos)
    · rw [fwriteFirst_pos hpos, max_eq_left hlen]
      refine congrArg (Image.mk image.len) (funext fun a => ?_)
      by_cases ha : blkAddr.toNat ≤ a ∧ a < blkAddr.toNat + count
      · rw [splice_in ha.1 ha.2, ← hsame _ (by omega), Nat.add_sub_cancel' ha.1]
      · rw [splice_out (by omega), Image.reaching, if_neg (by omega)]

end Fwrite

/-! ## What a store does -/

/-- A store to this block would succeed. -/
structure StoreOk (card : Card) (blkAddr : ULong) : Prop where
  writable : card.fp = some true
  aligned : blkAddr &&& 0x1ff#64 = 0#64
  seeks : ¬seekFails card.fault blkAddr
  taken : card.fault = .none

theorem StoreOk.of_none {card : Card} {blkAddr : ULong} (hfp : card.fp = some true)
    (haligned : blkAddr &&& 0x1ff#64 = 0#64) (hnear : blkAddr.toNat < 2 ^ 63)
    (hfault : card.fault = .none) : StoreOk card blkAddr :=
  ⟨hfp, haligned, seeks_of_none hfault hnear, hfault⟩

/-- How many bytes a store puts into the file. -/
def Card.accepted (card : Card) (blkAddr : ULong) : Nat :=
  if card.fp = some true ∧ blkAddr &&& 0x1ff#64 = 0#64 ∧ blkAddr.toNat < 2 ^ 63 then
    card.fault.accepts
  else 0

theorem storeOk_iff_accepted (card : Card) (blkAddr : ULong) :
    StoreOk card blkAddr ↔ card.accepted blkAddr = 512 := by
  rw [Card.accepted]
  constructor
  · intro h
    rw [if_pos ⟨h.writable, h.aligned, not_le.mp (mt Or.inr h.seeks)⟩, h.taken]
    rfl
  · intro h
    split at h
    case isTrue hready =>
      exact .of_none hready.1 hready.2.1 hready.2.2 (Fault.accepts_eq.mp h)
    case isFalse => exact absurd h (by decide)

theorem flush_run (card : Card) : flush card = store card.curBlk card := rfl

theorem accepted_of_unready {card : Card} {blkAddr : ULong}
    (h : card.fp ≠ some true ∨ blkAddr &&& 0x1ff#64 ≠ 0#64 ∨ seekFails card.fault blkAddr) :
    card.accepted blkAddr = 0 := by
  rw [Card.accepted]
  split
  case isTrue hready =>
    obtain ⟨hfp, haligned, hnear⟩ := hready
    rcases h with hno | hno | hseek | hfar
    · exact absurd hfp hno
    · exact absurd haligned hno
    · rw [hseek]
      rfl
    · exact absurd hnear (not_lt.mpr hfar)
  case isFalse => rfl

/-- The card after a store, with the bytes in the file that it has put
there. -/
def Card.stored (card : Card) (blkAddr : ULong) (faults : List Fault) : Card :=
  { card with
    image := fwriteFirst card.image card.buffer blkAddr (card.accepted blkAddr)
    faults := faults }

theorem Card.stored_none {card : Card} {blkAddr : ULong} (h : card.accepted blkAddr = 0)
    (faults : List Fault) : card.stored blkAddr faults = { card with faults := faults } := by
  rw [Card.stored, h, fwriteFirst_zero]

theorem store_run (blkAddr : ULong) (card : Card) :
    store blkAddr card =
      if card.fp = .none then (-1, card)
      else if blkAddr &&& 0x1ff#64 ≠ 0#64 then (-2, card)
      else if seekFails card.fault blkAddr then (-3, { card with faults := card.faults.tail })
      else if card.accepted blkAddr ≠ 512 then (-4, card.stored blkAddr card.faults.tail)
      else (0, card.stored blkAddr card.faults.tail) := by
  have hcount (haligned : ¬blkAddr &&& 0x1ff#64 ≠ 0#64) (hseek : ¬seekFails card.fault blkAddr) :
      (if card.fp = some true then card.fault.accepts else 0) = card.accepted blkAddr := by
    have hnear : blkAddr.toNat < 2 ^ 63 := not_le.mp (mt Or.inr hseek)
    rw [Card.accepted]
    simp only [not_not.mp haligned, hnear, and_true]
  simp only [store, nextFault, bind_assoc, get_bind_run, modify_bind_run, pure_bind, pure_run,
    ite_run]
  refine ite_congr rfl (fun _ => rfl) fun _ => ite_congr rfl (fun _ => rfl) fun haligned => ?_
  refine ite_congr rfl (fun _ => rfl) fun hseek => ?_
  rw [← hcount haligned hseek, Card.stored, ← hcount haligned hseek]

theorem store_ok {card : Card} {blkAddr : ULong} (h : StoreOk card blkAddr) :
    store blkAddr card = (0, { card with
      image := fwriteImage card.image card.buffer blkAddr
      faults := card.faults.tail }) := by
  have hwhole := (storeOk_iff_accepted card blkAddr).mp h
  obtain ⟨hfp, haligned, hseek, -⟩ := h
  rw [store_run, if_neg (by simp [hfp]), if_neg (not_not_intro haligned), if_neg hseek,
    if_neg (not_not_intro hwhole), Card.stored, hwhole, fwriteFirst_block]

/-- A store that fails says so, and has put a part of the block into the
file at most. -/
theorem store_fails {card : Card} {blkAddr : ULong} (h : ¬StoreOk card blkAddr) :
    ∃ e faults, store blkAddr card = (e, card.stored blkAddr faults) ∧ e < 0 ∧ -4 ≤ e := by
  rw [storeOk_iff_accepted] at h
  rw [store_run]
  split_ifs with hfp haligned hseek
  · have hnone : card.accepted blkAddr = 0 := accepted_of_unready (.inl (by simp [hfp]))
    exact ⟨-1, card.faults, by rw [Card.stored_none hnone], by decide, by decide⟩
  · have hnone : card.accepted blkAddr = 0 := accepted_of_unready (.inr (.inl haligned))
    exact ⟨-2, card.faults, by rw [Card.stored_none hnone], by decide, by decide⟩
  · have hnone := accepted_of_unready (.inr (.inr hseek))
    exact ⟨-3, card.faults.tail, by rw [Card.stored_none hnone], by decide, by decide⟩
  · exact ⟨-4, card.faults.tail, rfl, by decide, by decide⟩

/-- A store that is refused, and leaves the file as it is. -/
def Card.Spares (card : Card) (blkAddr : ULong) : Prop :=
  ¬StoreOk card blkAddr
    ∧ fwriteFirst card.image card.buffer blkAddr (card.accepted blkAddr) = card.image

theorem spares_of_none {card : Card} {blkAddr : ULong} (h : card.accepted blkAddr = 0) :
    card.Spares blkAddr := by
  refine ⟨fun hok => ?_, by rw [h, fwriteFirst_zero]⟩
  rw [(storeOk_iff_accepted card blkAddr).mp hok] at h
  exact absurd h (by decide)

theorem store_stored (blkAddr : ULong) (card : Card) :
    ∃ e faults, store blkAddr card = (e, card.stored blkAddr faults) := by
  by_cases h : StoreOk card blkAddr
  · refine ⟨0, card.faults.tail, ?_⟩
    rw [store_ok h, Card.stored, (storeOk_iff_accepted card blkAddr).mp h, fwriteFirst_block]
  · obtain ⟨e, faults, hrun, -, -⟩ := store_fails h
    exact ⟨e, faults, hrun⟩

end Sdcard

end CpMega88
