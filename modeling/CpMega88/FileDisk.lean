import CpMega88.DiskArray
import CpMega88.Extent
import CpMega88.Guest

/-!
# Disks in a mounted file

The disk commands on a file that lies in one piece (`InFile`). Whatever
the registers hold, a command comes to a block of the file
(`diskRead_inFile`), so no guest reaches anything else on the card
(`guest_in_file`).

A file that covers both drives is the disk array of `Disks` as well, as
long as the record of `fetch_cluster` does not get in the way: it keeps
the lower 16 bits of an offset only, so that of two commands in a row for
blocks 64 kB apart the second finds the block of the first. Where no two
commands do that (`FreshRun`) the controller implements the array
(`file_refines`).
-/

namespace CpMega88

open Bytes Runs Fat Sdcard Splice

variable {σ : Type}

namespace Machine

/-! ## A file in one piece -/

/-- The first byte of the open file. -/
def State.filePos (s : State) : Nat := s.volume.clusterPos s.volume.fileCluster

/-- The block in the buffer is the one on record. -/
structure OnRecord (v : Volume) (n : Nat) : Prop where
  within : v.lastOffset.toNat < n * v.clusterBytes.toNat
  curBlk : v.card.curBlk.toNat = v.clusterPos v.fileCluster + v.lastOffset.toNat / 512 * 512
  holds : v.card.image.Holds v.card.curBlk
  buffer : ∀ i < 512, v.card.buffer i = v.card.image.block v.card.curBlk i

/-- A file is mounted that lies in `n` clusters in a row, on a card that
works. -/
structure InFile (s : State) (n : Nat) : Prop where
  mode : s.sdFat ≠ 0
  extent : Extent s.volume.toGeometry s.card.image s.volume.fileCluster n
  size : s.volume.fileSize.toNat ≤ n * s.volume.clusterBytes.toNat
  offset : s.volume.fileOffset < s.volume.fileSize
  opened : s.card.fp = some true
  works : ∀ f ∈ s.card.faults, f = Fault.none
  record : s.volume.lastCluster = s.volume.fileCluster → OnRecord s.volume n

/-- The block in the buffer, for the parts of the state it depends on. -/
theorem InFile.of_volume {s s' : State} {n : Nat} (h : InFile s n) (hvol : s'.volume = s.volume)
    (hmode : s'.sdFat = s.sdFat) : InFile s' n := by
  obtain ⟨volume, sram, console, eeprom, wrPrt, vtCnv, sdFat, drive, track, sect, diskErr, dmaLo,
    dmaHi, esc⟩ := s'
  obtain rfl : volume = s.volume := hvol
  obtain rfl : sdFat = s.sdFat := hmode
  exact ⟨h.mode, h.extent, h.size, h.offset, h.opened, h.works, h.record⟩

theorem sought_lt {s : State} {n : Nat} (h : InFile s n) (blk : ULong) :
    s.volume.sought blk < s.volume.fileSize := by
  rw [Volume.sought]
  split
  · exact h.offset
  · exact BitVec.not_le.mp ‹_›

theorem InFile.quiet {s : State} {n : Nat} (h : InFile s n) (k : Nat) : Quiet s.card k :=
  fun f hf => h.works f (List.mem_of_mem_take hf)

/-- The volume as a command leaves it. -/
structure Reached (s : State) (n : Nat) (blk : ULong) (v : Volume) : Prop where
  inFile : InFile { s with volume := v } n
  own : v.lastCluster = v.fileCluster
  image : v.card.image = s.card.image
  geometry : v.toGeometry = s.volume.toGeometry
  file : v.fileCluster = s.volume.fileCluster
  fileSize : v.fileSize = s.volume.fileSize
  offset : v.lastOffset = s.volume.sought blk
    ∨ s.volume.lastCluster = s.volume.fileCluster ∧ v.lastOffset = s.volume.lastOffset
      ∧ s.volume.sought blk &&& 0xfe00#64 = s.volume.lastOffset &&& 0xfe00#64

/-- A command finds a block of the file, whatever is asked for. -/
theorem diskRead_inFile {fuel n : Nat} (hfuel : n ≤ fuel) {s : State} (h : InFile s n)
    (blk : ULong) :
    ∃ v, diskRead fuel blk s = some ((), { s with volume := v }) ∧ Reached s n blk v := by
  obtain ⟨v₀, hv₀⟩ : ∃ v₀, v₀ = { s.volume with fileOffset := s.volume.sought blk } := ⟨_, rfl⟩
  have hlt := sought_lt h blk
  by_cases hhit : v₀.hit v₀.fileCluster v₀.fileOffset
  · have hread : fatRead fuel v₀ = some (0, v₀) := by
      rw [fatRead, Prog.get_bind_run]
      exact fetchCluster_hit hhit fuel
    subst hv₀
    refine ⟨_, diskRead_open h.mode hread, ?_⟩
    have hlast : s.volume.lastCluster = s.volume.fileCluster := hhit.1.symm
    refine ⟨?_, hlast, rfl, rfl, rfl, rfl, .inr ⟨hlast, rfl, hhit.2⟩⟩
    have hrec := h.record hlast
    exact ⟨h.mode, h.extent, h.size, hlt, h.opened, h.works,
      fun _ => ⟨hrec.within, hrec.curBlk, hrec.holds, hrec.buffer⟩⟩
  · have hwithin : (s.volume.sought blk).toNat < n * s.volume.clusterBytes.toNat :=
      (BitVec.lt_def.mp hlt).trans_le h.size
    obtain ⟨k, b, hk, hlands, hholds, haddr⟩ := h.extent.lands hwithin
    have hne : s.card.fp ≠ none := by
      rw [h.opened]
      decide
    subst hv₀
    obtain ⟨v, hrun, hfetched⟩ :=
      fetchCluster_ok hhit hlands hne (h.quiet (k + 1)) (Nat.lt_of_lt_of_le hk hfuel)
    have hused := fetchCluster_keeps (Q := Used) _ _ _ _ _ _ hrun
    have hread :
        fatRead fuel { s.volume with fileOffset := s.volume.sought blk } = some (0, v) := by
      rw [fatRead, Prog.get_bind_run]
      exact hrun
    refine ⟨v, diskRead_open h.mode hread, ?_⟩
    obtain ⟨card, hmoved, hcur, hbuffer, rfl⟩ := hfetched
    have himage : card.image = s.card.image := hmoved.image
    refine ⟨?_, rfl, himage, rfl, rfl, rfl, .inl rfl⟩
    refine ⟨h.mode, himage ▸ h.extent, h.size, hlt, hmoved.fp.trans h.opened,
      fun f hf => h.works f (hused.subset hf), fun _ => ⟨hwithin, ?_, ?_, ?_⟩⟩
    · exact (congrArg BitVec.toNat hcur).trans haddr
    · show card.image.Holds card.curBlk
      rw [himage, hcur]
      exact hholds
    · intro i hi
      show card.buffer i = card.image.block card.curBlk i
      rw [hbuffer i hi, himage, hcur]
      rfl

/-! ## Writing -/

theorem OnRecord.inside {v : Volume} {n : Nat} (h : OnRecord v n) :
    v.clusterPos v.fileCluster ≤ v.card.curBlk.toNat
      ∧ v.card.curBlk.toNat + 512 ≤ v.clusterPos v.fileCluster + n * v.clusterBytes.toNat := by
  have hwithin := h.within
  have hcur := h.curBlk
  rw [toNat_clusterBytes, ← Nat.mul_assoc] at hwithin ⊢
  omega

/-- After 128 bytes from RAM have gone to the block in the buffer, and the
block to the card. -/
def State.wrote (s : State) (off dma : Word) : State :=
  { s.withCard { (s.given off dma 128).card with
    image := fwriteImage s.card.image (s.given off dma 128).card.buffer s.card.curBlk
    faults := s.card.faults.tail } with diskErr := 0 }

/-- Nothing but the file is different on the card. -/
structure Outside (n : Nat) (s s' : State) : Prop where
  pos : s'.filePos = s.filePos
  clusterBytes : s'.volume.clusterBytes = s.volume.clusterBytes
  len : s'.card.image.len = s.card.image.len
  byte : ∀ a < s.card.image.len,
    a < s.filePos ∨ s.filePos + n * s.volume.clusterBytes.toNat ≤ a →
      s'.card.image.byte a = s.card.image.byte a

theorem Outside.refl (n : Nat) (s : State) : Outside n s s := ⟨rfl, rfl, rfl, fun _ _ _ => rfl⟩

theorem Outside.trans {n : Nat} {s t u : State} (h : Outside n s t) (h' : Outside n t u) :
    Outside n s u where
  pos := h'.pos.trans h.pos
  clusterBytes := h'.clusterBytes.trans h.clusterBytes
  len := h'.len.trans h.len
  byte := by
    intro a ha hout
    refine (h'.byte a (h.len ▸ ha) ?_).trans (h.byte a ha hout)
    rwa [h.pos, h.clusterBytes]

theorem Outside.of_volume (n : Nat) {s s' : State} (h : s'.volume = s.volume) :
    Outside n s s' where
  pos := by rw [State.filePos, h, State.filePos]
  clusterBytes := by rw [h]
  len := congrArg (fun v : Volume => v.card.image.len) h
  byte _ _ _ := congrArg (fun v : Volume => v.card.image.byte _) h

theorem wrote_inFile {n : Nat} {s : State} (h : InFile s n)
    (hown : s.volume.lastCluster = s.volume.fileCluster) (off dma : Word) :
    InFile (s.wrote off dma) n ∧ Outside n s (s.wrote off dma) := by
  have hrec := h.record hown
  obtain ⟨hge, hle⟩ := hrec.inside
  have hinside : s.card.curBlk.toNat + 512 ≤ s.card.image.len := hrec.holds.inside
  have hlen : (s.wrote off dma).card.image.len = s.card.image.len := Nat.max_eq_left hinside
  constructor
  · refine ⟨h.mode, h.extent.fwrite _ hge, h.size, h.offset, h.opened,
      fun f hf => h.works f (List.mem_of_mem_tail hf), fun _ => ⟨hrec.within, hrec.curBlk, ?_, ?_⟩⟩
    · exact ⟨hrec.holds.aligned, hrec.holds.seeks, hlen ▸ hinside⟩
    · intro i hi
      exact (fwriteImage_add hi).symm
  · refine ⟨rfl, rfl, hlen, fun a ha hout => fwriteImage_out ?_ ha⟩
    show a < s.volume.card.curBlk.toNat ∨ s.volume.card.curBlk.toNat + 512 ≤ a
    rw [State.filePos] at hout
    omega

theorem storeOk_onRecord {n : Nat} {s : State} (h : InFile s n)
    (hown : s.volume.lastCluster = s.volume.fileCluster) : StoreOk s.card s.card.curBlk :=
  .of_none h.opened (h.record hown).holds.aligned (h.record hown).holds.seeks (h.quiet 1).head

theorem Reached.outside {n : Nat} {s : State} {blk : ULong} {v : Volume} (h : Reached s n blk v) :
    Outside n s { s with volume := v } where
  pos := by
    show v.clusterPos v.fileCluster = _
    rw [h.geometry, h.file, State.filePos]
  clusterBytes := by
    show v.clusterBytes = _
    rw [h.geometry]
  len := congrArg Image.len h.image
  byte a _ _ := congrArg (fun image => image.byte a) h.image

/-- The disk array that the open file stands for. -/
def State.fileDisks (s : State) : Disks where
  sector := records (fun a => s.filePos + Sector.pos a) 128 s.card.image.byte
  ram := s.sram
  drive := s.drive
  track := s.track
  sect := s.sect
  diskErr := s.diskErr
  dmaLo := s.dmaLo
  dmaHi := s.dmaHi

/-- The block of the disks that a sector is in. -/
def Sector.blk (a : Sector) : Nat := a.pos / 512

/-- The block on record, where it is one of the file. -/
def State.lastBlk (s : State) : Option Nat :=
  if s.volume.lastCluster = s.volume.fileCluster then some (s.volume.lastOffset.toNat / 512)
  else none

/-- The block on record after an access. -/
def Disks.lastAfter (d : Disks) (last : Option Nat) : Access → Option Nat
  | .command _ => d.addressed.map Sector.blk
  | _ => last

/-- The record does not take the block asked for for another one. -/
def Disks.Fresh (d : Disks) (last : Option Nat) : Access → Prop
  | .command _ => ∀ a ∈ d.addressed, ∀ b ∈ last, a.blk % 128 = b % 128 → a.blk = b
  | _ => True

def Disks.FreshRun (d : Disks) (last : Option Nat) : List Access → Prop
  | [] => True
  | e :: es => d.Fresh last e ∧ (d.step e).FreshRun (d.lastAfter last e) es

/-- The file covers both drives, and may be written. -/
structure Mounted (s : State) (n : Nat) : Prop extends InFile s n where
  writable : s.wrPrt = 0
  covers : diskBytes ≤ s.volume.fileSize.toNat

theorem Mounted.of_same {s s' : State} {n : Nat} (h : Mounted s n) (hfile : InFile s' n)
    (hwrPrt : s'.wrPrt = s.wrPrt) (hsize : s'.volume.fileSize = s.volume.fileSize) :
    Mounted s' n :=
  ⟨hfile, hwrPrt.trans h.writable, hsize ▸ h.covers⟩

theorem apart_from (base : Nat) : Apart (fun a => base + Sector.pos a) 128 := by
  intro a b hne
  have := Sector.apart a b hne
  show base + a.pos + 128 ≤ base + b.pos ∨ base + b.pos + 128 ≤ base + a.pos
  omega

/-- A command for a sector, once the block has been found. -/
structure Found (s : State) (n : Nat) (a : Sector) (v : Volume) : Prop where
  reached : Reached s n s.blk v
  last : v.lastOffset.toNat / 512 = a.blk
  curBlk : v.card.curBlk.toNat + s.off.toNat = s.filePos + a.pos
  off : s.off.toNat + 128 ≤ 512

theorem diskRead_found {fuel n : Nat} (hfuel : n ≤ fuel) {s : State} (h : Mounted s n)
    (hvalid : ValidSector s.drive s.track s.sect)
    (hfresh : ∀ b ∈ s.lastBlk, Sector.blk ⟨s.drive, s.track, s.sect, hvalid⟩ % 128 = b % 128 →
      Sector.blk ⟨s.drive, s.track, s.sect, hvalid⟩ = b) :
    ∃ v, diskRead fuel s.blk s = some ((), { s with volume := v })
      ∧ Found s n ⟨s.drive, s.track, s.sect, hvalid⟩ v := by
  obtain ⟨hpos, haligned, hoff, hlt⟩ := blk_off_eq hvalid
  obtain ⟨v, hread, hv⟩ := diskRead_inFile hfuel h.toInFile s.blk
  refine ⟨v, hread, hv, ?_, ?_, hoff⟩
  all_goals
    have hsought : s.volume.sought s.blk = s.blk := by
      rw [Volume.sought, if_neg]
      rw [BitVec.not_le, BitVec.lt_def]
      exact hlt.trans_le h.covers
    have hblk : Sector.blk ⟨s.drive, s.track, s.sect, hvalid⟩ = s.blk.toNat / 512 := by
      rw [Sector.blk, ← hpos]
      omega
    have hlast : v.lastOffset.toNat / 512 = s.blk.toNat / 512 := by
      rcases hv.offset with hnew | ⟨hown, hkept, hhit⟩
      · rw [hnew, hsought]
      · rw [hsought, sameRecord_iff] at hhit
        have hsame := hfresh (s.volume.lastOffset.toNat / 512) (if_pos hown)
          (by rw [hblk]; exact hhit)
        rw [hkept, ← hsame, hblk]
  · exact hlast.trans hblk.symm
  · have hcur := (hv.inFile.record hv.own).curBlk
    have hbase : v.clusterPos v.fileCluster = s.filePos := hv.outside.pos
    rw [← hpos]
    show v.card.curBlk.toNat + _ = _
    rw [hcur, hbase, hlast]
    omega

section Found

variable {s : State} {n : Nat} {a : Sector} {v : Volume}

theorem Found.pos (h : Found s n a v) : State.filePos { s with volume := v } = s.filePos :=
  h.reached.outside.pos

theorem Found.buffer (h : Found s n a v) {i : Nat} (hi : i < 128) :
    v.card.buffer (s.off + BitVec.ofNat 16 i).toNat = s.fileDisks.sector a ⟨i, hi⟩ := by
  have hoff := h.off
  have hcur := h.curBlk
  have hat : (s.off + BitVec.ofNat 16 i).toNat = s.off.toNat + i := toNat_add_ofNat rfl (by omega)
  have hblock := (h.reached.inFile.record h.reached.own).buffer (s.off.toNat + i) (by omega)
  rw [hat]
  refine hblock.trans ?_
  show v.card.image.byte _ = s.card.image.byte (s.filePos + a.pos + i)
  rw [h.reached.image]
  exact congrArg _ (show v.card.curBlk.toNat + (s.off.toNat + i) = _ by omega)

theorem Found.get (h : Found s n a v) :
    State.fileDisks { State.taken { s with volume := v } s.off s.dma 128 with diskErr := 0 }
      = s.fileDisks.get a := by
  refine Disks.ext ?_ (funext fun addr => ?_) rfl rfl rfl rfl rfl rfl
  · show records (fun a => State.filePos { s with volume := v } + Sector.pos a) 128
      v.card.image.byte = _
    rw [h.pos, h.reached.image]
    rfl
  · show blit s.sram s.dma (fun i => v.card.buffer (s.off + BitVec.ofNat 16 i).toNat) 128 addr
      = if h : (addr - s.dma).toNat < 128 then s.fileDisks.sector a ⟨(addr - s.dma).toNat, h⟩
        else s.sram addr
    by_cases hin : (addr - s.dma).toNat < 128
    · rw [blit, if_pos hin, dif_pos hin]
      exact h.buffer hin
    · rw [blit, if_neg hin, dif_neg hin]

theorem Found.put (h : Found s n a v) (hsize : diskBytes ≤ s.volume.fileSize.toNat) :
    (State.wrote { s with volume := v } s.off s.dma).fileDisks = s.fileDisks.put a := by
  have hcur := h.curBlk
  have hrec := h.reached.inFile.record h.reached.own
  have hfile := h.reached.inFile.extent.inside
  have hcovers : diskBytes ≤ v.fileSize.toNat := h.reached.fileSize ▸ hsize
  have hlong : v.fileSize.toNat ≤ n * v.clusterBytes.toNat := h.reached.inFile.size
  have hbase : v.clusterPos v.fileCluster = s.filePos := h.pos
  let kept : Nat → Byte := v.card.image.reaching v.card.curBlk.toNat
  have hinside : v.card.curBlk.toNat + 512 ≤ v.card.image.len := hrec.holds.inside
  have hblock : ∀ k < 512, v.card.buffer k = kept (v.card.curBlk.toNat + k) := by
    intro k hk
    refine (hrec.buffer k hk).trans ?_
    exact (reaching_of_lt (show v.card.curBlk.toNat + k < v.card.image.len by omega)).symm
  have hkept : records (fun a => s.filePos + Sector.pos a) 128 kept
      = records (fun a => s.filePos + Sector.pos a) 128 v.card.image.byte := by
    refine records_congr fun a i hi => reaching_of_lt ?_
    have hend : v.clusterPos v.fileCluster + n * v.clusterBytes.toNat ≤ v.card.image.len := hfile
    have := a.pos_le
    omega
  refine Disks.ext ?_ rfl rfl rfl rfl rfl rfl rfl
  show records (fun a => State.filePos { s with volume := v } + Sector.pos a) 128
    (splice kept
      (splice v.card.buffer (fun i => s.sram (s.dma + BitVec.ofNat 16 i)) s.off.toNat 128)
      v.card.curBlk.toNat 512) = _
  rw [h.pos, splice_block _ _ h.off hblock, hcur, records_splice (apart_from s.filePos), hkept,
    h.reached.image]
  rfl

theorem Found.lastBlk (h : Found s n a v) {s' : State} (hvol : s'.volume.lastOffset = v.lastOffset)
    (hown : s'.volume.lastCluster = s'.volume.fileCluster) : s'.lastBlk = some a.blk := by
  rw [State.lastBlk, if_pos hown, hvol, h.last]

end Found

/-- A command does what the array does. -/
theorem file_command_refines {fuel n : Nat} (hfuel : n ≤ fuel) {s : State} {val : Byte}
    (h : Mounted s n) (hval : val = 0 ∨ val = 1) (hvalid : ValidSector s.drive s.track s.sect)
    (hfresh : s.fileDisks.Fresh s.lastBlk (.command val)) :
    ∃ s', command fuel val s = some ((), s') ∧ Mounted s' n
      ∧ s'.fileDisks = s.fileDisks.step (.command val)
      ∧ s'.lastBlk = s.fileDisks.lastAfter s.lastBlk (.command val) := by
  have haddr : s.fileDisks.addressed = some ⟨s.drive, s.track, s.sect, hvalid⟩ := dif_pos hvalid
  have hdrive : s.drive = 0 ∨ s.drive = 8 := hvalid.imp And.left And.left
  obtain ⟨v, hread, hv⟩ := diskRead_found hfuel h hvalid (hfresh _ haddr)
  have hlast : s.fileDisks.lastAfter s.lastBlk (.command val)
      = some (Sector.blk ⟨s.drive, s.track, s.sect, hvalid⟩) := by
    rw [Disks.lastAfter, haddr]
    rfl
  rw [command_run hdrive hread, Disks.step, haddr, hlast]
  rcases hval with rfl | rfl
  · have hin : InFile { State.taken { s with volume := v } s.off s.dma 128 with diskErr := 0 } n :=
      hv.reached.inFile.of_volume rfl rfl
    exact ⟨_, (if_pos rfl).trans (receive_run s.off s.dma _),
      h.of_same hin rfl hv.reached.fileSize, hv.get.trans (if_pos rfl).symm,
      hv.lastBlk rfl hv.reached.own⟩
  · obtain ⟨hin, -⟩ := wrote_inFile hv.reached.inFile hv.reached.own s.off s.dma
    have hoff : s.off.toNat + 128 ≤ 2 ^ 16 := (off_le s).trans (by decide)
    have hne : ¬(1 : Byte) = 0 := by decide
    exact ⟨_, (if_neg hne).trans ((if_pos ⟨rfl, h.writable⟩).trans
      (send_ok hoff s.dma (storeOk_onRecord hv.reached.inFile hv.reached.own))),
      h.of_same hin rfl hv.reached.fileSize, (hv.put h.covers).trans (if_neg hne).symm,
      hv.lastBlk rfl hv.reached.own⟩

theorem file_access_refines {fuel n : Nat} (hfuel : n ≤ fuel) {s : State} {e : Access}
    (h : Mounted s n) (hlegal : s.fileDisks.Legal e) (hfresh : s.fileDisks.Fresh s.lastBlk e) :
    ∃ s', e.run fuel s = some ((), s') ∧ Mounted s' n ∧ s'.fileDisks = s.fileDisks.step e
      ∧ s'.lastBlk = s.fileDisks.lastAfter s.lastBlk e := by
  cases e with
  | command val => exact file_command_refines hfuel h hlegal.1 hlegal.2 hfresh
  | drive val | track val | sect val | dmaLo val | dmaHi val | poke addr data =>
      exact ⟨_, rfl, h.of_same (h.toInFile.of_volume rfl rfl) rfl rfl, rfl, rfl⟩

/-- A mounted file in one piece is the array of independent sectors, for
every run of accesses in which the record of `fetch_cluster` does not
mistake one block for another. -/
theorem file_refines {fuel n : Nat} (hfuel : n ≤ fuel) {es : List Access} {s : State}
    (h : Mounted s n) (hlegal : s.fileDisks.LegalRun es)
    (hfresh : s.fileDisks.FreshRun s.lastBlk es) :
    ∃ s', Prog.runAll (Access.run fuel) es s = some ((), s') ∧ Mounted s' n
      ∧ s'.fileDisks = s.fileDisks.run es := by
  induction es generalizing s with
  | nil => exact ⟨s, rfl, h, rfl⟩
  | cons e es ih =>
      obtain ⟨t, hrun, ht, hdisks, hlast⟩ := file_access_refines hfuel h hlegal.1 hfresh.1
      obtain ⟨s', hrun', hs', hdisks'⟩ := ih ht (hdisks ▸ hlegal.2)
        (by rw [hdisks, hlast]; exact hfresh.2)
      refine ⟨s', (Prog.bind_of_run hrun _).trans hrun', hs', ?_⟩
      rw [hdisks', hdisks]
      rfl

/-- A card with one file, whose 68 clusters cover both drives. -/
def spanImage : Image where
  len := 4523008
  byte := fun addr =>
    if 512 ≤ addr ∧ addr < 1024 ∧ addr % 2 = 0 then BitVec.ofNat 8 ((addr - 512) / 2 + 1) else 0

def spanVolume : Volume :=
  { Volume.initial ⟨spanImage, some true, fun _ => 0, 0, some true, []⟩ with
    sectorsPerCluster := 128
    reservedSectors := 1
    dirSector := 2
    dirEntries := 2048
    dirSize := 1
    fileCluster := 2
    fileSize := 4434176
    lastCluster := 0 }

theorem spanVolume_extent : Extent spanVolume.toGeometry spanImage 2 68 where
  formatted := ⟨by decide, by decide⟩
  low := by decide
  high := by decide
  next := by
    have hall : ∀ k < 68, k + 1 < 68 → spanVolume.entry spanImage (2 + BitVec.ofNat 16 k)
        = 2 + BitVec.ofNat 16 (k + 1) := by decide +kernel
    exact fun k hk => hall k (by omega) hk
  fat := by decide +kernel
  inside := by decide +kernel

def spanned : State := booted spanVolume

theorem spanned_mounted : Mounted spanned 68 where
  mode := by decide
  extent := spanVolume_extent
  size := by decide +kernel
  offset := by decide
  opened := rfl
  works f hf := absurd hf List.not_mem_nil
  record h := absurd h (by decide)
  writable := rfl
  covers := by decide

/-- A sector of each drive is written, and the first one read back. -/
def eachDrive : List Access :=
  [.poke 0x1000 0x5a, .dmaHi 0x10, .sect 1, .command 1, .drive 8, .track 3, .command 1, .drive 0,
    .track 0, .dmaHi 0x20, .command 0]

theorem file_refines_both : ∃ s', Prog.runAll (Access.run 68) eachDrive spanned = some ((), s')
    ∧ s'.sram 0x2000 = 0x5a ∧ s'.diskErr = 0 := by
  have hlegal : spanned.fileDisks.LegalRun eachDrive :=
    ⟨trivial, trivial, trivial, ⟨.inr rfl, by decide⟩, trivial, trivial, ⟨.inr rfl, by decide⟩,
      trivial, trivial, trivial, ⟨.inl rfl, by decide⟩, trivial⟩
  have hfresh : spanned.fileDisks.FreshRun spanned.lastBlk eachDrive := by
    refine ⟨trivial, trivial, trivial, fun a ha b hb => (nomatch hb), trivial, trivial, ?_, trivial,
      trivial, trivial, ?_, trivial⟩
    · rintro a ⟨⟩ b ⟨⟩
      decide
    · rintro a ⟨⟩ b ⟨⟩
      decide
  obtain ⟨s', hrun, -, hdisks⟩ := file_refines le_rfl spanned_mounted hlegal hfresh
  have hram : s'.sram = _ := congrArg Disks.ram hdisks
  have herr : s'.diskErr = _ := congrArg Disks.diskErr hdisks
  refine ⟨s', hrun, ?_, ?_⟩
  · rw [hram]
    decide +kernel
  · rw [herr]
    rfl

end Machine

end CpMega88
