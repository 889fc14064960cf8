import CpMega88.Controller

/-!
# The disk array

What the controller is for: two drives of numbered sectors with 128 bytes
each, drive A of 77 tracks with 26 sectors and drive I of 255 tracks with
128. `Disks` is that, as a map of sectors; the registers, the DMA transfer
and the error byte are the guest's view of it.

In raw mode, on a card that covers both drives and always works, the
controller implements it (`disks_refine`): the four sectors that share a
block, and the one block that the two drives share, do not get into each
other's way.
-/

namespace CpMega88

open Bytes Fat Sdcard Splice

namespace Machine

/-! ## Sectors -/

def ValidSector (drive track sect : Byte) : Prop :=
  drive = 0 ∧ track.toNat ≤ 76 ∧ 1 ≤ sect.toNat ∧ sect.toNat ≤ 26
    ∨ drive = 8 ∧ track.toNat ≤ 254 ∧ 1 ≤ sect.toNat ∧ sect.toNat ≤ 128

instance (drive track sect : Byte) : Decidable (ValidSector drive track sect) :=
  inferInstanceAs (Decidable (_ ∨ _))

structure Sector where
  drive : Byte
  track : Byte
  sect : Byte
  valid : ValidSector drive track sect
deriving DecidableEq

/-- The first byte of a sector on the card. -/
def Sector.pos (a : Sector) : Nat :=
  if a.drive = 0 then (a.track.toNat * 26 + a.sect.toNat - 1) * 128
  else (a.track.toNat * 128 + a.sect.toNat - 1) * 128 + 256256

/-- The end of drive I. -/
def diskBytes : Nat := 256256 + 255 * 128 * 128

/-- A sector of either drive, and where it is. -/
theorem Sector.cases (a : Sector) :
    (a.drive = 0 ∧ a.track.toNat ≤ 76 ∧ 1 ≤ a.sect.toNat ∧ a.sect.toNat ≤ 26
        ∧ a.pos = (a.track.toNat * 26 + a.sect.toNat - 1) * 128)
      ∨ (a.drive = 8 ∧ a.track.toNat ≤ 254 ∧ 1 ≤ a.sect.toNat ∧ a.sect.toNat ≤ 128
        ∧ a.pos = (a.track.toNat * 128 + a.sect.toNat - 1) * 128 + 256256) := by
  rcases a.valid with ⟨hdrive, htrack, hmin, hmax⟩ | ⟨hdrive, htrack, hmin, hmax⟩
  · exact .inl ⟨hdrive, htrack, hmin, hmax, if_pos hdrive⟩
  · exact .inr ⟨hdrive, htrack, hmin, hmax, if_neg (by rw [hdrive]; decide)⟩

theorem Sector.pos_le (a : Sector) : a.pos + 128 ≤ diskBytes := by
  rw [diskBytes]
  rcases a.cases with ⟨-, htrack, hmin, hmax, hpos⟩ | ⟨-, htrack, hmin, hmax, hpos⟩ <;> omega

theorem Sector.ext_toNat {a b : Sector} (hdrive : a.drive = b.drive)
    (htrack : a.track.toNat = b.track.toNat) (hsect : a.sect.toNat = b.sect.toNat) : a = b := by
  obtain ⟨drive, track, sect, valid⟩ := a
  obtain ⟨drive', track', sect', valid'⟩ := b
  obtain rfl : drive = drive' := hdrive
  obtain rfl : track = track' := BitVec.eq_of_toNat_eq htrack
  obtain rfl : sect = sect' := BitVec.eq_of_toNat_eq hsect
  rfl

/-- Different sectors are in different places. -/
theorem Sector.apart : Apart Sector.pos 128 := by
  intro a b hne
  by_contra hclose
  rcases a.cases with ⟨ha, htrack, hmin, hmax, hpos⟩ | ⟨ha, htrack, hmin, hmax, hpos⟩ <;>
    rcases b.cases with ⟨hb, htrack', hmin', hmax', hpos'⟩ | ⟨hb, htrack', hmin', hmax', hpos'⟩
  · exact hne (Sector.ext_toNat (ha.trans hb.symm) (by omega) (by omega))
  · omega
  · omega
  · exact hne (Sector.ext_toNat (ha.trans hb.symm) (by omega) (by omega))

/-! ## The array -/

/-- The sectors, and the guest's side of the interface. -/
@[ext]
structure Disks where
  sector : Sector → Fin 128 → Byte
  ram : Mem
  drive : Byte
  track : Byte
  sect : Byte
  diskErr : Byte
  dmaLo : Byte
  dmaHi : Byte

/-- What a guest does: an OUT to one of the ports 10, 11, 12, 13, 15 and
16, or a store to its RAM. -/
inductive Access where
  | drive (val : Byte)
  | track (val : Byte)
  | sect (val : Byte)
  | command (val : Byte)
  | dmaLo (val : Byte)
  | dmaHi (val : Byte)
  | poke (addr : Word) (data : Byte)

namespace Disks

def dma (d : Disks) : Word := word d.dmaHi d.dmaLo

/-- The sector the registers name. -/
def addressed (d : Disks) : Option Sector :=
  if h : ValidSector d.drive d.track d.sect then some ⟨d.drive, d.track, d.sect, h⟩ else none

/-- A sector goes to RAM, from the DMA address on and around the end. -/
def get (d : Disks) (a : Sector) : Disks :=
  { d with
    ram := fun addr =>
      if h : (addr - d.dma).toNat < 128 then d.sector a ⟨(addr - d.dma).toNat, h⟩ else d.ram addr
    diskErr := 0 }

/-- A sector is taken from RAM. -/
def put (d : Disks) (a : Sector) : Disks :=
  { d with
    sector := Function.update d.sector a fun i => d.ram (d.dma + BitVec.ofNat 16 i)
    diskErr := 0 }

def step (d : Disks) : Access → Disks
  | .drive val => { d with drive := val }
  | .track val => { d with track := val }
  | .sect val => { d with sect := val }
  | .command val =>
    match d.addressed with
    | some a => if val = 0 then d.get a else d.put a
    | none => d
  | .dmaLo val => { d with dmaLo := val }
  | .dmaHi val => { d with dmaHi := val }
  | .poke addr data => { d with ram := Function.update d.ram addr data }

def run (d : Disks) (es : List Access) : Disks := es.foldl step d

/-- A command is to read or write, and finds the registers naming a
sector. -/
def Legal (d : Disks) : Access → Prop
  | .command val => (val = 0 ∨ val = 1) ∧ ValidSector d.drive d.track d.sect
  | _ => True

def LegalRun (d : Disks) : List Access → Prop
  | [] => True
  | e :: es => d.Legal e ∧ (d.step e).LegalRun es

end Disks

/-! ## The controller as a disk array -/

def Access.run (fuel : Nat) : Access → MachineM Unit
  | .drive val => out fuel 10 val
  | .track val => out fuel 11 val
  | .sect val => out fuel 12 val
  | .command val => out fuel 13 val
  | .dmaLo val => out fuel 15 val
  | .dmaHi val => out fuel 16 val
  | .poke addr data => sramWrite addr data

/-- The disk array a state of the machine stands for. -/
def State.disks (s : State) : Disks where
  sector := records Sector.pos 128 s.card.image.byte
  ram := s.sram
  drive := s.drive
  track := s.track
  sect := s.sect
  diskErr := s.diskErr
  dmaLo := s.dmaLo
  dmaHi := s.dmaHi

/-- Raw mode without write protection, on a card that covers both drives
and always works. -/
structure Ready (s : State) : Prop where
  raw : s.sdFat = 0
  writable : s.wrPrt = 0
  opened : s.card.fp = some true
  works : ∀ f ∈ s.card.faults, f = Fault.none
  whole : s.card.image.len % 512 = 0
  covers : diskBytes ≤ s.card.image.len

/-- Nothing overflows in the address of a sector. -/
theorem toNat_sectorPos (track sect : Byte) {n : ULong} (hn : n.toNat ≤ 128)
    (hsect : 1 ≤ sect.toNat) :
    ((track.setWidth 64 * n + sect.setWidth 64 - 1#64) * 128#64 : ULong).toNat
      = (track.toNat * n.toNat + sect.toNat - 1) * 128 := by
  have hsectlt := sect.isLt
  have hprod : track.toNat * n.toNat ≤ 255 * 128 :=
    Nat.mul_le_mul (Nat.le_of_lt_succ track.isLt) hn
  have hmul : (track.setWidth 64 * n : ULong).toNat = track.toNat * n.toNat := by
    rw [BitVec.toNat_mul, BitVec.toNat_setWidth_of_le (by decide)]
    exact Nat.mod_eq_of_lt (by omega)
  have hadd : (track.setWidth 64 * n + sect.setWidth 64 : ULong).toNat
      = track.toNat * n.toNat + sect.toNat := by
    rw [BitVec.toNat_add, hmul, BitVec.toNat_setWidth_of_le (by decide)]
    exact Nat.mod_eq_of_lt (by omega)
  have hone : (1#64).toNat = 1 := rfl
  have hsub : (track.setWidth 64 * n + sect.setWidth 64 - 1#64 : ULong).toNat
      = track.toNat * n.toNat + sect.toNat - 1 := by
    rw [BitVec.toNat_sub_of_le (by rw [BitVec.le_def, hadd, hone]; omega), hadd, hone]
  rw [BitVec.toNat_mul, hsub, show (128#64).toNat = 128 from rfl]
  exact Nat.mod_eq_of_lt (by omega)

/-- The registers name a sector, and the controller goes there. -/
theorem pos_eq {s : State} (h : ValidSector s.drive s.track s.sect) :
    s.pos.toNat = Sector.pos ⟨s.drive, s.track, s.sect, h⟩ := by
  rcases h with ⟨hdrive, htrack, hmin, hmax⟩ | ⟨hdrive, htrack, hmin, hmax⟩
  · rw [State.pos, if_neg (not_not_intro hdrive), if_neg (not_not_intro hdrive), Sector.pos,
      if_pos hdrive, BitVec.add_zero]
    exact toNat_sectorPos s.track s.sect (by decide) hmin
  · have hne : s.drive ≠ 0 := by rw [hdrive]; decide
    have hpos := toNat_sectorPos s.track s.sect (n := 128#64) (by decide) hmin
    have hsect := s.sect.isLt
    rw [State.pos, if_pos hne, if_pos hne, Sector.pos, if_neg hne, BitVec.toNat_add, hpos]
    exact Nat.mod_eq_of_lt (show (_ : Nat) + 256256 < 2 ^ 64 by
      rw [show (128#64).toNat = 128 from rfl]; omega)

/-- Block and offset of a sector. -/
theorem blk_off_eq {s : State} (h : ValidSector s.drive s.track s.sect) :
    s.blk.toNat + s.off.toNat = Sector.pos ⟨s.drive, s.track, s.sect, h⟩
      ∧ s.blk.toNat % 512 = 0 ∧ s.off.toNat + 128 ≤ 512 ∧ s.blk.toNat < diskBytes := by
  have hpos := pos_eq h
  have hle := Sector.pos_le ⟨s.drive, s.track, s.sect, h⟩
  have hoff := off_lt s
  have hblk : s.blk.toNat = s.pos.toNat % 2 ^ 32 / 512 * 512 := toNat_and_mask s.pos
  rw [diskBytes] at hle ⊢
  exact ⟨by omega, by omega, off_le s, by omega⟩

theorem Ready.fault {s : State} (h : Ready s) : s.card.fault = .none := by
  cases hf : s.card.faults with
  | nil => exact fault_of_quiet hf
  | cons f fs =>
      rw [Card.fault, hf]
      exact h.works f (by rw [hf]; exact List.mem_cons_self)

theorem Ready.holds {s : State} (h : Ready s) (hvalid : ValidSector s.drive s.track s.sect) :
    s.card.image.Holds s.blk where
  aligned := blk_aligned s
  seeks := by
    obtain ⟨-, -, -, hlt⟩ := blk_off_eq hvalid
    rw [diskBytes] at hlt
    omega
  inside := by
    obtain ⟨-, haligned, -, hlt⟩ := blk_off_eq hvalid
    have hwhole := h.whole
    have hcovers := h.covers
    omega

/-- The card after the fetch that a command begins with. -/
def State.fetched (s : State) : State := s.withCard (s.card.loaded s.blk)

theorem fetched_buffer {s : State} (hvalid : ValidSector s.drive s.track s.sect) {i : Nat}
    (hi : i < 128) : s.fetched.card.buffer (s.off + BitVec.ofNat 16 i).toNat
      = s.disks.sector ⟨s.drive, s.track, s.sect, hvalid⟩ ⟨i, hi⟩ := by
  obtain ⟨hpos, -, hoff, -⟩ := blk_off_eq hvalid
  have hat : (s.off + BitVec.ofNat 16 i).toNat = s.off.toNat + i := toNat_add_ofNat rfl (by omega)
  rw [hat]
  refine (loaded_buffer s.card s.blk (by omega)).trans ?_
  rw [Image.block, ← Nat.add_assoc, hpos]
  rfl

theorem disks_get {s : State} (hvalid : ValidSector s.drive s.track s.sect) :
    { s.fetched.taken s.off s.dma 128 with diskErr := 0 : State }.disks
      = s.disks.get ⟨s.drive, s.track, s.sect, hvalid⟩ := by
  refine Disks.ext rfl (funext fun addr => ?_) rfl rfl rfl rfl rfl rfl
  show blit s.sram s.dma (fun i => s.fetched.card.buffer (s.off + BitVec.ofNat 16 i).toNat) 128 addr
    = if h : (addr - s.dma).toNat < 128 then
        s.disks.sector ⟨s.drive, s.track, s.sect, hvalid⟩ ⟨(addr - s.dma).toNat, h⟩
      else s.sram addr
  by_cases h : (addr - s.dma).toNat < 128
  · rw [blit, if_pos h, dif_pos h]
    exact fetched_buffer hvalid h
  · rw [blit, if_neg h, dif_neg h]

/-- The card after the sector has been put into the block and the block
has been stored. -/
def State.stored (s : State) : Card :=
  { (s.fetched.given s.off s.dma 128).card with
    image := fwriteImage s.card.image (s.fetched.given s.off s.dma 128).card.buffer s.blk
    faults := s.card.faults.tail.tail }

theorem disks_put {s : State} (h : Ready s) (hvalid : ValidSector s.drive s.track s.sect) :
    { s.fetched.withCard s.stored with diskErr := 0 : State }.disks
      = s.disks.put ⟨s.drive, s.track, s.sect, hvalid⟩ := by
  obtain ⟨hpos, -, hoff, -⟩ := blk_off_eq hvalid
  have hinside := (h.holds hvalid).inside
  have hcovers := h.covers
  let kept : Nat → Byte := s.card.image.reaching s.blk.toNat
  have hblock : ∀ k < 512, (s.card.loaded s.blk).buffer k = kept (s.blk.toNat + k) := by
    intro k hk
    rw [loaded_buffer _ _ hk]
    exact (reaching_of_lt (by omega)).symm
  have hkept : records Sector.pos 128 kept = records Sector.pos 128 s.card.image.byte :=
    records_congr fun a i hi => reaching_of_lt (by have := a.pos_le; omega)
  refine Disks.ext ?_ rfl rfl rfl rfl rfl rfl rfl
  show records Sector.pos 128 (splice kept (splice (s.card.loaded s.blk).buffer
    (fun i => s.sram (s.dma + BitVec.ofNat 16 i)) s.off.toNat 128) s.blk.toNat 512) = _
  rw [splice_block _ _ hoff hblock, hpos, records_splice Sector.apart, hkept]
  rfl

/-! ## The refinement -/

theorem fetched_ready {s : State} (h : Ready s) (sram : Mem) (err : Byte) :
    Ready { s.fetched with sram := sram, diskErr := err } where
  raw := h.raw
  writable := h.writable
  opened := h.opened
  works f hf := h.works f (List.mem_of_mem_tail hf)
  whole := h.whole
  covers := h.covers

theorem stored_ready {s : State} (h : Ready s) (hvalid : ValidSector s.drive s.track s.sect)
    (err : Byte) : Ready { s.fetched.withCard s.stored with diskErr := err } where
  raw := h.raw
  writable := h.writable
  opened := h.opened
  works f hf := h.works f (List.mem_of_mem_tail (List.mem_of_mem_tail hf))
  whole := by
    show max s.card.image.len (s.blk.toNat + 512) % 512 = 0
    rw [max_eq_left (h.holds hvalid).inside]
    exact h.whole
  covers := h.covers.trans (le_max_left _ _)

/-- A command does what the array does. -/
theorem command_refines (fuel : Nat) {s : State} {val : Byte} (h : Ready s)
    (hval : val = 0 ∨ val = 1) (hvalid : ValidSector s.drive s.track s.sect) :
    ∃ s', command fuel val s = some ((), s') ∧ Ready s'
      ∧ s'.disks = s.disks.step (.command val) := by
  have haddr : s.disks.addressed = some ⟨s.drive, s.track, s.sect, hvalid⟩ := dif_pos hvalid
  have hdrive : s.drive = 0 ∨ s.drive = 8 := hvalid.imp And.left And.left
  have hread := diskRead_raw h.raw fuel s.blk
  rw [fetch_ok ((h.holds hvalid).fetchOk (by rw [h.opened]; decide) h.fault)] at hread
  rw [command_run hdrive hread, Disks.step, haddr]
  rcases hval with rfl | rfl
  · exact ⟨_, (if_pos rfl).trans (receive_run s.off s.dma s.fetched), fetched_ready h _ _,
      (disks_get hvalid).trans (if_pos rfl).symm⟩
  · have hfetched : Ready s.fetched := fetched_ready h s.sram s.diskErr
    have hstore : StoreOk s.fetched.card s.fetched.card.curBlk :=
      .of_none h.opened (blk_aligned s) (h.holds hvalid).seeks hfetched.fault
    have hne : ¬(1 : Byte) = 0 := by decide
    exact ⟨_, (if_neg hne).trans ((if_pos ⟨rfl, h.writable⟩).trans
      (send_ok ((off_le s).trans (by decide)) s.dma hstore)), stored_ready h hvalid _,
      (disks_put h hvalid).trans (if_neg hne).symm⟩

theorem access_refines (fuel : Nat) {s : State} {e : Access} (h : Ready s)
    (hlegal : s.disks.Legal e) :
    ∃ s', e.run fuel s = some ((), s') ∧ Ready s' ∧ s'.disks = s.disks.step e := by
  cases e with
  | command val => exact command_refines fuel h hlegal.1 hlegal.2
  | drive val | track val | sect val | dmaLo val | dmaHi val | poke addr data =>
      exact ⟨_, rfl, ⟨h.raw, h.writable, h.opened, h.works, h.whole, h.covers⟩, rfl⟩

/-- Whatever a guest does with the disks, the controller does what the
array of independent sectors does, and no transfer leaves its block. -/
theorem disks_refine (fuel : Nat) {es : List Access} {s : State} (h : Ready s)
    (hlegal : s.disks.LegalRun es) :
    ∃ s', Prog.runAll (Access.run fuel) es s = some ((), s') ∧ Ready s'
      ∧ s'.disks = s.disks.run es ∧ s'.off.toNat + 127 ≤ 511 := by
  induction es generalizing s with
  | nil =>
      have hoff := off_le s
      exact ⟨s, rfl, h, rfl, by omega⟩
  | cons e es ih =>
      obtain ⟨t, hrun, ht, hdisks⟩ := access_refines fuel h hlegal.1
      obtain ⟨s', hrun', hs', hdisks', hoff⟩ := ih ht (hdisks ▸ hlegal.2)
      refine ⟨s', (Prog.bind_of_run hrun _).trans hrun', hs', ?_, hoff⟩
      rw [hdisks', hdisks]
      rfl

/-- The first sector of drive I, which begins in the middle of a block, is
written from address 0 and read back to the end of RAM and around it. -/
def writeAndRead : List Access :=
  [.poke 0x00 0x5a, .poke 0x7f 0xa5, .drive 8, .sect 1, .command 1, .dmaHi 0xff, .dmaLo 0xff,
    .command 0]

/-- A card that covers both drives. -/
def wholeCard : Card :=
  ⟨⟨8661 * 512, fun _ => 0⟩, some true, fun _ => 0, 0, some true, []⟩

theorem disks_refine_wrapped :
    ∃ s', Prog.runAll (Access.run 0) writeAndRead (State.initial wholeCard) = some ((), s')
      ∧ s'.sram 0xffff = 0x5a ∧ s'.sram 0x7e = 0xa5 ∧ s'.diskErr = 0 := by
  have hready : Ready (State.initial wholeCard) :=
    ⟨rfl, rfl, rfl, fun f hf => absurd hf List.not_mem_nil, by decide, by decide⟩
  have hlegal : (State.initial wholeCard).disks.LegalRun writeAndRead :=
    ⟨trivial, trivial, trivial, trivial, ⟨.inr rfl, by decide⟩, trivial, trivial,
      ⟨.inl rfl, by decide⟩, trivial⟩
  obtain ⟨s', hrun, -, hdisks, -⟩ := disks_refine 0 hready hlegal
  have hram : s'.sram = _ := congrArg Disks.ram hdisks
  have herr : s'.diskErr = _ := congrArg Disks.diskErr hdisks
  refine ⟨s', hrun, ?_, ?_, ?_⟩
  · rw [hram]
    decide +kernel
  · rw [hram]
    decide +kernel
  · rw [herr]
    rfl

end Machine

end CpMega88
