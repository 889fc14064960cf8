import CpMega88.DiskArray

/-!
# Raw mode on any card

What a command on port 13 transfers, whatever the file's length, whatever
the registers say and whatever stdio does: `read_run` and `write_run`.

A read gets the bytes of the image that `fread` has delivered, also from a
block that the file ends in (`read_transfers`). A write needs the whole
block: where the fetch fails, the block fetched before is written instead.
So the last sectors of an image that does not end with a block cannot be
written (`sector_reached_iff`), and a command keeps to the region of its
drive if, and only if, track and sector do, and the block is whole
(`confined_iff`).
-/

namespace CpMega88

open Bytes Fat Sdcard Splice

namespace Sdcard

/-- The call brings in its first `n` bytes, if the file has them. -/
def Fault.Passes (fault : Fault) (n : Nat) : Prop :=
  match fault with
  | .none => True
  | .seek => False
  | .short m => n ≤ m

instance (fault : Fault) (n : Nat) : Decidable (fault.Passes n) := by
  unfold Fault.Passes
  split <;> infer_instance

theorem le_freadCount {fault : Fault} {image : Image} {blkAddr : ULong} {n : Nat} (hn : n ≤ 512)
    (hseek : fault ≠ .seek) :
    n ≤ freadCount fault image blkAddr ↔ fault.Passes n ∧ n ≤ image.len - blkAddr.toNat := by
  cases fault with
  | none =>
      simp only [freadCount, Fault.Passes, true_and]
      omega
  | seek => exact absurd rfl hseek
  | short m =>
      simp only [freadCount, Fault.Passes]
      omega

theorem passes_seek {fault : Fault} {n : Nat} (h : fault.Passes n) : fault ≠ .seek := by
  rintro rfl
  exact h

/-- What it takes to get `n` bytes of a block. -/
theorem le_delivered {card : Card} {blkAddr : ULong} {n : Nat} (hn : n ≤ 512) (hpos : 0 < n)
    (haligned : blkAddr &&& 0x1ff#64 = 0#64) (hnear : blkAddr.toNat < 2 ^ 63) :
    n ≤ card.delivered blkAddr
      ↔ card.fp ≠ none ∧ card.fault.Passes n ∧ blkAddr.toNat + n ≤ card.image.len := by
  rw [Card.delivered]
  unfold seekFails
  split
  case isTrue h =>
    constructor
    · intro hzero
      omega
    · rintro ⟨hfp, hpasses, -⟩
      rcases h with hno | hno | hno | hno
      · exact absurd hno hfp
      · exact absurd haligned hno
      · exact absurd hno (passes_seek hpasses)
      · omega
  case isFalse h =>
    simp only [not_or] at h
    rw [le_freadCount hn h.2.2.1]
    constructor
    · rintro ⟨hpasses, hlen⟩
      exact ⟨h.1, hpasses, by omega⟩
    · rintro ⟨-, hpasses, hlen⟩
      exact ⟨hpasses, by omega⟩

/-- A fetch succeeds if it gets all of the block. -/
theorem fetchOk_iff_delivered (card : Card) (blkAddr : ULong) :
    FetchOk card blkAddr ↔ 512 ≤ card.delivered blkAddr := by
  have hle := freadCount_le card.fault card.image blkAddr
  rw [Card.delivered]
  split
  case isTrue h =>
    constructor
    · rintro ⟨hfp, haligned, hseek, -⟩
      rcases h with hno | hno | hno
      · exact absurd hno hfp
      · exact absurd haligned hno
      · exact absurd hno hseek
    · intro hzero
      omega
  case isFalse h =>
    simp only [not_or, not_not] at h
    constructor
    · intro hok
      exact hok.whole.ge
    · intro hwhole
      exact ⟨h.1, h.2.1, h.2.2, by omega⟩

end Sdcard

namespace Machine

/-! ## What a command transfers -/

/-- 128 bytes have gone from the image to RAM, or from RAM to the image,
and nothing else has changed in either. -/
def Transferred (val : Byte) (s s' : State) (q : Nat) : Prop :=
  if val = 0 then
    s'.sram = blit s.sram s.dma (fun i => s.card.image.byte (q + i)) 128
      ∧ s'.card.image = s.card.image
  else
    s'.sram = s.sram ∧ s'.card.image.len = s.card.image.len
      ∧ ∀ i < s.card.image.len, s'.card.image.byte i
        = splice s.card.image.byte (fun i => s.sram (s.dma + BitVec.ofNat 16 i)) q 128 i

theorem transferred_read {s s' : State} {q : Nat} : Transferred 0 s s' q
    ↔ s'.sram = blit s.sram s.dma (fun i => s.card.image.byte (q + i)) 128
      ∧ s'.card.image = s.card.image := by
  rw [Transferred, if_pos rfl]

theorem transferred_write {s s' : State} {q : Nat} : Transferred 1 s s' q
    ↔ s'.sram = s.sram ∧ s'.card.image.len = s.card.image.len
      ∧ ∀ i < s.card.image.len, s'.card.image.byte i
        = splice s.card.image.byte (fun i => s.sram (s.dma + BitVec.ofNat 16 i)) q 128 i := by
  rw [Transferred, if_neg (by decide)]

/-- A command ends in one state. -/
theorem out_unique {fuel : Nat} {port val : Byte} {s t t' : State}
    (h : out fuel port val s = some ((), t)) (h' : out fuel port val s = some ((), t')) : t = t' :=
  congrArg Prod.snd (Option.some.inj (h.symm.trans h'))

/-- The state after the fetch that a command begins with, whether or not
it succeeds. -/
def State.asked (s : State) : State := s.withCard (Sdcard.fetch s.blk s.card).2

theorem asked_buffer (s : State) : s.asked.card.buffer
    = splice s.card.buffer (s.card.image.block s.blk) 0 (s.card.delivered s.blk) :=
  fetch_buffer s.card s.blk

theorem asked_image (s : State) : s.asked.card.image = s.card.image :=
  (fetch_moved s.card s.blk).image

theorem off_add (s : State) {i : Nat} (hi : i < 128) :
    (s.off + BitVec.ofNat 16 i).toNat = s.off.toNat + i := by
  have hoff := off_le s
  exact toNat_add_ofNat rfl (by omega)

theorem read_run (fuel : Nat) {s : State} (hraw : s.sdFat = 0)
    (hdrive : s.drive = 0 ∨ s.drive = 8) : ∃ s', out fuel 13 0 s = some ((), s') ∧ s'.diskErr = 0
      ∧ s'.sram = blit s.sram s.dma (fun i => s.asked.card.buffer (s.off.toNat + i)) 128
      ∧ s'.card.image = s.card.image := by
  have hrun := (command_run hdrive (diskRead_raw hraw fuel s.blk) 0).trans
    ((if_pos rfl).trans (receive_run s.off s.dma s.asked))
  refine ⟨_, hrun, rfl, ?_, asked_image s⟩
  funext addr
  show blit s.sram s.dma (fun i => s.asked.card.buffer (s.off + BitVec.ofNat 16 i).toNat) 128 addr
    = _
  rw [blit, blit]
  by_cases h : (addr - s.dma).toNat < 128
  · rw [if_pos h, if_pos h, off_add s h]
  · rw [if_neg h, if_neg h]

/-- How many bytes the store of a write can put into the file, by the call
that comes after that of the fetch. -/
def State.accepts (s : State) : Nat := (s.card.faults.tail.headD .none).accepts

theorem asked_fp (s : State) : s.asked.card.fp = s.card.fp := (fetch_moved s.card s.blk).fp

theorem asked_fault {s : State} (hfp : s.card.fp = some true) :
    s.asked.card.fault = s.card.faults.tail.headD .none := by
  have hfaults : s.asked.card.faults = s.card.faults.tail := by
    by_cases hok : FetchOk s.card s.blk
    · exact congrArg (fun r => r.2.faults) (fetch_ok hok)
    · obtain ⟨count, hrun⟩ := fetch_failed (blk_aligned s) hok
      rw [if_neg (by rw [hfp]; decide)] at hrun
      exact congrArg Card.faults hrun
  rw [Card.fault, hfaults]

theorem accepted_asked {s : State} (hfp : s.card.fp = some true) {blkAddr : ULong}
    (haligned : blkAddr &&& 0x1ff#64 = 0#64) (hnear : blkAddr.toNat < 2 ^ 63) :
    s.asked.card.accepted blkAddr = s.accepts := by
  rw [Card.accepted, asked_fp, if_pos ⟨hfp, haligned, hnear⟩, asked_fault hfp, State.accepts]

theorem accepted_none {s : State} (h : s.card.fp ≠ some true ∨ s.accepts = 0) (blkAddr : ULong) :
    s.asked.card.accepted blkAddr = 0 := by
  rw [Card.accepted, asked_fp]
  split
  case isTrue hready =>
    rw [asked_fault hready.1]
    exact h.resolve_left (not_not_intro hready.1)
  case isFalse => rfl

/-- What a write does: the block that goes to the card, all of it or its
beginning, is the one fetched last. -/
theorem write_run (fuel : Nat) {s : State} (hraw : s.sdFat = 0)
    (hdrive : s.drive = 0 ∨ s.drive = 8) (hwp : s.wrPrt = 0) :
    ∃ s', out fuel 13 1 s = some ((), s')
      ∧ (s'.diskErr = 0 ↔ s.asked.card.accepted s.asked.card.curBlk = 512) ∧ s'.sram = s.sram
      ∧ s'.card.image = fwriteFirst s.card.image s.pending s.asked.card.curBlk
        (s.asked.card.accepted s.asked.card.curBlk) := by
  have hsend := (command_run hdrive (diskRead_raw hraw fuel s.blk) 1).trans
    ((if_neg (by decide)).trans (if_pos ⟨rfl, hwp⟩))
  have hoff := (off_le s).trans (by decide : 512 ≤ 2 ^ 16)
  have himage (card : Card) (hcard : card = (s.asked.given s.off s.dma 128).card) :
      fwriteFirst card.image card.buffer s.asked.card.curBlk
          (s.asked.card.accepted s.asked.card.curBlk)
        = fwriteFirst s.card.image s.pending s.asked.card.curBlk
          (s.asked.card.accepted s.asked.card.curBlk) := by
    rw [State.pending, ← fetch_buffer, ← asked_image, hcard]
    rfl
  by_cases hstore : StoreOk s.asked.card s.asked.card.curBlk
  · have hwhole := (storeOk_iff_accepted _ _).mp hstore
    refine ⟨_, hsend.trans (send_ok hoff s.dma hstore), iff_of_true rfl hwhole, rfl, ?_⟩
    rw [← himage _ rfl, hwhole, fwriteFirst_block]
    rfl
  · obtain ⟨console, faults, hfail⟩ := send_fails hoff s.dma hstore
    exact ⟨_, hsend.trans hfail,
      iff_of_false (by decide : (6 : Byte) ≠ 0) (mt (storeOk_iff_accepted _ _).mpr hstore), rfl,
      himage _ rfl⟩

/-- A write that is stopped, by the write protection or by the card. -/
theorem write_stops (fuel : Nat) {s : State} (hraw : s.sdFat = 0)
    (hdrive : s.drive = 0 ∨ s.drive = 8)
    (hstop : s.wrPrt ≠ 0 ∨ s.card.fp ≠ some true ∨ s.accepts = 0) :
    ∃ s', out fuel 13 1 s = some ((), s') ∧ Contained s s' := by
  have himage := (fetch_moved s.card s.blk).image
  exact (out_contained_iff hdrive (.inr rfl) (diskRead_raw hraw fuel s.blk) rfl himage).mpr
    ⟨rfl, hstop.imp id fun hnone => spares_of_none (accepted_none hnone _)⟩

/-! ## Where a command goes -/

/-- The first byte that the registers name, also if there is no such
sector. -/
def place (drive track sect : Byte) : Nat :=
  if drive = 0 then (track.toNat * 26 + sect.toNat - 1) * 128
  else (track.toNat * 128 + sect.toNat - 1) * 128 + 256256

def State.place (s : State) : Nat := Machine.place s.drive s.track s.sect

theorem place_add_lt (s : State) : s.place + 128 < 2 ^ 32 := by
  have htrack := s.track.isLt
  have hsect := s.sect.isLt
  rw [State.place, Machine.place]
  split <;> omega

theorem pos_eq_place {s : State} (hsect : 1 ≤ s.sect.toNat) : s.pos.toNat = s.place := by
  have hlt := s.sect.isLt
  have hlt' := s.track.isLt
  by_cases hdrive : s.drive = 0
  · rw [State.pos, if_neg (not_not_intro hdrive), if_neg (not_not_intro hdrive), State.place,
      Machine.place, if_pos hdrive, BitVec.add_zero]
    exact toNat_sectorPos s.track s.sect (by decide) hsect
  · have hpos := toNat_sectorPos s.track s.sect (n := 128#64) (by decide) hsect
    rw [State.pos, if_pos hdrive, if_pos hdrive, State.place, Machine.place, if_neg hdrive,
      BitVec.toNat_add, hpos]
    exact Nat.mod_eq_of_lt (show (_ : Nat) + 256256 < 2 ^ 64 by
      rw [show (128#64).toNat = 128 from rfl]; omega)

/-- Block and offset of that place. -/
theorem blk_off_place {s : State} (hsect : 1 ≤ s.sect.toNat) :
    s.blk.toNat = s.place / 512 * 512 ∧ s.off.toNat = s.place % 512
      ∧ s.blk.toNat + s.off.toNat = s.place := by
  have hlt := place_add_lt s
  have hoff := off_lt s
  have hblk : s.blk.toNat = s.pos.toNat % 2 ^ 32 / 512 * 512 := toNat_and_mask s.pos
  rw [pos_eq_place hsect] at hoff hblk
  omega

theorem blk_lt (s : State) : s.blk.toNat < 2 ^ 63 := by
  have hblk : s.blk.toNat = s.pos.toNat % 2 ^ 32 / 512 * 512 := toNat_and_mask s.pos
  omega

/-- A command gets at its 128 bytes. -/
theorem delivered_iff (s : State) : s.off.toNat + 128 ≤ s.card.delivered s.blk
    ↔ s.card.fp ≠ none ∧ s.card.fault.Passes (s.off.toNat + 128)
      ∧ s.blk.toNat + s.off.toNat + 128 ≤ s.card.image.len := by
  rw [le_delivered (off_le s) (by omega) (blk_aligned s) (blk_lt s), ← Nat.add_assoc]

/-- A command gets the block it asks for. -/
theorem fetchOk_blk_iff (s : State) : FetchOk s.card s.blk
    ↔ s.card.fp ≠ none ∧ s.card.fault.Passes 512 ∧ s.blk.toNat + 512 ≤ s.card.image.len := by
  rw [fetchOk_iff_delivered, le_delivered le_rfl (by omega) (blk_aligned s) (blk_lt s)]

/-- A read that gets its 128 bytes. -/
theorem read_transfers (fuel : Nat) {s : State} (hraw : s.sdFat = 0)
    (hdrive : s.drive = 0 ∨ s.drive = 8) (hgot : s.off.toNat + 128 ≤ s.card.delivered s.blk) :
    ∃ s', out fuel 13 0 s = some ((), s') ∧ s'.diskErr = 0
      ∧ Transferred 0 s s' (s.blk.toNat + s.off.toNat) := by
  obtain ⟨s', hrun, herr, hsram, himage⟩ := read_run fuel hraw hdrive
  refine ⟨s', hrun, herr, transferred_read.mpr ⟨?_, himage⟩⟩
  rw [hsram]
  funext addr
  rw [blit, blit]
  by_cases h : (addr - s.dma).toNat < 128
  · rw [if_pos h, if_pos h, asked_buffer, splice_in (Nat.zero_le _) (by omega), Nat.sub_zero,
      Image.block, Nat.add_assoc]
  · rw [if_neg h, if_neg h]

/-- A write that has its block. -/
theorem write_own (fuel : Nat) {s : State} (hraw : s.sdFat = 0)
    (hdrive : s.drive = 0 ∨ s.drive = 8) (hwp : s.wrPrt = 0) (hfp : s.card.fp = some true)
    (hok : FetchOk s.card s.blk) :
    ∃ s', out fuel 13 1 s = some ((), s') ∧ (s'.diskErr = 0 ↔ s.accepts = 512)
      ∧ s'.sram = s.sram ∧ s'.card.image = fwriteFirst s.card.image s.pending s.blk s.accepts := by
  have hcur : s.asked.card.curBlk = s.blk := congrArg (fun r => r.2.curBlk) (fetch_ok hok)
  have haccepted := accepted_asked hfp hok.aligned hok.holds.seeks
  have hrun := write_run fuel hraw hdrive hwp
  rwa [hcur, haccepted] at hrun

/-- A write whose fetch has failed goes to the block fetched before. -/
theorem write_strays (fuel : Nat) {s : State} (hraw : s.sdFat = 0)
    (hdrive : s.drive = 0 ∨ s.drive = 8) (hwp : s.wrPrt = 0) (hfp : s.card.fp = some true)
    (hno : ¬FetchOk s.card s.blk) (haligned : s.card.curBlk.toNat % 512 = 0)
    (hnear : s.card.curBlk.toNat < 2 ^ 63) :
    ∃ s', out fuel 13 1 s = some ((), s') ∧ (s'.diskErr = 0 ↔ s.accepts = 512)
      ∧ s'.card.image = fwriteFirst s.card.image s.pending s.card.curBlk s.accepts := by
  obtain ⟨count, hcut⟩ := fetch_failed (blk_aligned s) hno
  have hcur : s.asked.card.curBlk = s.card.curBlk := by
    rw [State.asked, withCard_card, hcut]
    rfl
  have haccepted := accepted_asked hfp ((aligned_iff _).mpr haligned) hnear
  obtain ⟨s', hout, herr, -, himage⟩ := write_run fuel hraw hdrive hwp
  rw [hcur, haccepted] at herr himage
  exact ⟨s', hout, herr, himage⟩

/-- What goes back to the card when the block has come: the block, with
the sector from RAM. -/
theorem pending_ok {s : State} (hok : FetchOk s.card s.blk) :
    s.pending = splice (s.card.loaded s.blk).buffer (fun i => s.sram (s.dma + BitVec.ofNat 16 i))
      s.off.toNat 128 := by
  rw [State.pending, ← fetch_buffer, fetch_ok hok]

theorem pending_sector (s : State) {i : Nat} (hi : i < 128) :
    s.pending (s.off.toNat + i) = s.sram (s.dma + BitVec.ofNat 16 i) := splice_add hi

/-- A write that gets as far as its sector's end has written the sector. -/
theorem write_transfers {s s' : State} (hok : FetchOk s.card s.blk) (hsram : s'.sram = s.sram)
    (himage : s'.card.image = fwriteFirst s.card.image s.pending s.blk s.accepts)
    (hfar : s.off.toNat + 128 ≤ s.accepts) : Transferred 1 s s' (s.blk.toNat + s.off.toNat) := by
  have hinside := hok.holds.inside
  have hcount : s.accepts ≤ 512 := Fault.accepts_le _
  have hblock : ∀ k < s.accepts, (s.card.loaded s.blk).buffer k
      = s.card.image.reaching s.blk.toNat (s.blk.toNat + k) := by
    intro k hk
    rw [loaded_buffer _ _ (by omega)]
    exact (reaching_of_lt (by omega)).symm
  refine transferred_write.mpr ⟨hsram, ?_, fun i hi => ?_⟩
  · rw [himage]
    exact fwriteFirst_len (by omega)
  · rw [himage, fwriteFirst_pos (by omega), pending_ok hok]
    dsimp only
    rw [splice_block _ _ hfar hblock]
    exact splice_congr (reaching_of_lt hi)

/-- One that does not get as far as the sector has put back what was
there. -/
theorem write_short {s : State} (hok : FetchOk s.card s.blk) (hnear : s.accepts ≤ s.off.toNat) :
    fwriteFirst s.card.image s.pending s.blk s.accepts = s.card.image := by
  have hinside := hok.holds.inside
  have hoff := off_le s
  refine fwriteFirst_eq_iff.mpr (.inr ⟨by omega, fun i hi => ?_⟩)
  rw [pending_ok hok, splice_out (by omega), loaded_buffer _ _ (by omega)]
  rfl

/-! ## Every sector can be reached -/

/-- The same situation over other contents of the image, of the card
buffer and of RAM, with another block fetched before. -/
def State.over (s : State) (byte buffer : Nat → Byte) (curBlk : ULong) (sram : Mem) : State :=
  { s.withCard { s.card with
      image := ⟨s.card.image.len, byte⟩
      buffer := buffer
      curBlk := curBlk } with
    sram := sram }

/-- The command works on the sector at `q`, whatever the contents and
whatever the card buffer has held. -/
def Reaches (fuel : Nat) (s : State) (val : Byte) (q : Nat) : Prop :=
  ∀ byte buffer curBlk sram, ∃ s',
    out fuel 13 val (s.over byte buffer curBlk sram) = some ((), s') ∧ s'.diskErr = 0
      ∧ Transferred val (s.over byte buffer curBlk sram) s' q

/-- The registers name a sector. -/
def State.At (s : State) (a : Sector) : Prop :=
  s.drive = a.drive ∧ s.track = a.track ∧ s.sect = a.sect

theorem State.At.place {s : State} {a : Sector} (h : s.At a) :
    (s.drive = 0 ∨ s.drive = 8) ∧ 1 ≤ s.sect.toNat ∧ s.place = a.pos := by
  obtain ⟨hdrive, htrack, hsect⟩ := h
  have hplace : s.place = a.pos := by
    rw [State.place, hdrive, htrack, hsect]
    rfl
  rw [hdrive, hsect]
  rcases a.valid with ⟨hdrive, -, hmin, -⟩ | ⟨hdrive, -, hmin, -⟩
  · exact ⟨.inl hdrive, hmin, hplace⟩
  · exact ⟨.inr hdrive, hmin, hplace⟩

/-- What RAM shows after a read. -/
theorem read_shows {fuel : Nat} {s s' : State} {q : Nat} (hraw : s.sdFat = 0)
    (hdrive : s.drive = 0 ∨ s.drive = 8) (hrun : out fuel 13 0 s = some ((), s'))
    (h : Transferred 0 s s' q) {i : Nat} (hi : i < 128) :
    s.asked.card.buffer (s.off.toNat + i) = s.card.image.byte (q + i) := by
  obtain ⟨t, hrun', -, hsram, -⟩ := read_run fuel hraw hdrive
  obtain rfl : t = s' := out_unique hrun' hrun
  have hat := congrFun (hsram.symm.trans (transferred_read.mp h).1) (s.dma + BitVec.ofNat 16 i)
  have hsub : (s.dma + BitVec.ofNat 16 i - s.dma).toNat = i := by
    rw [add_sub_cancel_left, BitVec.toNat_ofNat]
    omega
  rw [blit, blit, hsub, if_pos hi, if_pos hi] at hat
  exact hat

/-- What a read shows tells whether its bytes have been delivered: if the
buffer held ones, and the bytes are zeros. -/
theorem delivered_of_shown {s : State} (hbuf : ∀ k, s.card.buffer k = 1)
    (hzero : ∀ i < 128, s.asked.card.buffer (s.off.toNat + i) = 0) :
    s.off.toNat + 128 ≤ s.card.delivered s.blk
      ∧ ∀ i < 128, s.card.image.byte (s.blk.toNat + (s.off.toNat + i)) = 0 := by
  have hgot : ∀ i < 128, s.off.toNat + i < s.card.delivered s.blk := by
    intro i hi
    by_contra hlate
    have hone := hzero i hi
    rw [asked_buffer, splice_out (by omega), hbuf] at hone
    exact absurd hone (by decide)
  refine ⟨hgot 127 (by decide), fun i hi => ?_⟩
  have hat := hzero i hi
  rwa [asked_buffer, splice_in (Nat.zero_le _) (by have := hgot i hi; omega), Nat.sub_zero] at hat

/-- A block other than the one the registers name. -/
def State.elsewhere (s : State) : ULong := if s.blk.toNat = 0 then 512#64 else 0#64

theorem elsewhere_apart (s : State) : s.elsewhere.toNat % 512 = 0 ∧ s.elsewhere.toNat < 2 ^ 63
    ∧ (s.blk.toNat + 512 ≤ s.elsewhere.toNat ∨ s.elsewhere.toNat + 512 ≤ s.blk.toNat) := by
  have hblk : s.blk.toNat = s.pos.toNat % 2 ^ 32 / 512 * 512 := toNat_and_mask s.pos
  rw [State.elsewhere]
  split
  case isTrue hzero =>
    rw [show (512#64).toNat = 512 from rfl]
    omega
  case isFalse hne =>
    rw [show (0#64).toNat = 0 from rfl]
    omega

/-- A write that ends well has its block. -/
theorem fetchOk_of_reaches {fuel : Nat} {s : State} {q : Nat} (hraw : s.sdFat = 0)
    (hdrive : s.drive = 0 ∨ s.drive = 8) (hq : s.blk.toNat + s.off.toNat = q)
    (hin : q + 128 ≤ s.card.image.len) (h : Reaches fuel s 1 q) :
    s.wrPrt = 0 ∧ s.card.fp = some true ∧ s.card.faults.tail.headD .none = .none
      ∧ FetchOk s.card s.blk := by
  -- the image is zeros, the sector to write is not
  obtain ⟨s', hrun, herr, htr⟩ := h (fun _ => 0) (fun _ => 0) s.elsewhere fun _ => 2
  generalize ht : s.over (fun _ => 0) (fun _ => 0) s.elsewhere (fun _ => 2) = t at hrun htr
  obtain ⟨hraw', hdrive', hblk, hoff, hlen⟩ : t.sdFat = 0 ∧ (t.drive = 0 ∨ t.drive = 8)
      ∧ t.blk = s.blk ∧ t.off = s.off ∧ t.card.image.len = s.card.image.len := by
    subst ht
    exact ⟨hraw, hdrive, rfl, rfl, rfl⟩
  obtain ⟨hwp, hfp⟩ : t.wrPrt = 0 ∧ t.card.fp = some true := by
    by_contra hno
    obtain ⟨t', hrun', herr', -⟩ := write_stops fuel hraw' hdrive'
      ((not_and_or.mp hno).imp id Or.inl)
    obtain rfl := out_unique hrun' hrun
    exact herr' herr
  have hok : FetchOk t.card t.blk := by
    by_contra hno
    obtain ⟨hcur, hnear, hapart⟩ := elsewhere_apart s
    have hcur' : t.card.curBlk = s.elsewhere := by rw [← ht]; rfl
    rw [← hcur'] at hcur hnear hapart
    obtain ⟨t', hrun', -, himage⟩ := write_strays fuel hraw' hdrive' hwp hfp hno hcur hnear
    obtain rfl := out_unique hrun' hrun
    have hle := off_le s
    have hcount : t.accepts ≤ 512 := Fault.accepts_le _
    have hsplice := (transferred_write.mp htr).2.2 q (by omega)
    rw [himage, fwriteFirst_out (by omega) (by omega), splice_in le_rfl (by omega)] at hsplice
    rw [← ht] at hsplice
    exact absurd (show (0 : Byte) = 2 from hsplice) (by decide)
  obtain ⟨t', hrun', herr', -⟩ := write_own fuel hraw' hdrive' hwp hfp hok
  obtain rfl := out_unique hrun' hrun
  have hnext := Fault.accepts_eq.mp (herr'.mp herr)
  have hok' := (fetchOk_blk_iff t).mp hok
  rw [hblk, hlen] at hok'
  subst ht
  exact ⟨hwp, hfp, hnext, (fetchOk_blk_iff s).mpr hok'⟩

/-- In raw mode a sector inside the image is read whenever stdio delivers
it, and written whenever nothing forbids it and all of its block is inside
the image as well. -/
theorem sector_reached_iff (fuel : Nat) {s : State} {val : Byte} {a : Sector} (hat : s.At a)
    (hraw : s.sdFat = 0) (hval : val = 0 ∨ val = 1) (hin : a.pos + 128 ≤ s.card.image.len) :
    Reaches fuel s val a.pos
      ↔ (val = 0 ∧ s.card.fp ≠ none ∧ s.card.fault.Passes (a.pos % 512 + 128))
        ∨ (val = 1 ∧ s.wrPrt = 0 ∧ s.card.fp = some true ∧ s.card.fault.Passes 512
          ∧ s.card.faults.tail.headD .none = .none
          ∧ a.pos / 512 * 512 + 512 ≤ s.card.image.len) := by
  obtain ⟨hdrive, hsect, hplace⟩ := hat.place
  obtain ⟨hblk, hoff, hsum⟩ := blk_off_place hsect
  rw [hplace] at hblk hoff hsum
  rw [← hblk, ← hoff]
  constructor
  · intro h
    rcases hval with rfl | rfl
    · obtain ⟨s', hrun, -, htr⟩ := h (fun _ => 0) (fun _ => 1) 0 s.sram
      obtain ⟨hgot, -⟩ := delivered_of_shown (fun _ => rfl) fun i hi =>
        read_shows (s := s.over (fun _ => 0) (fun _ => 1) 0 s.sram) hraw hdrive hrun htr hi
      obtain ⟨hfp, hpasses, -⟩ := (delivered_iff _).mp hgot
      exact .inl ⟨rfl, hfp, hpasses⟩
    · obtain ⟨hwp, hfp, hnext, hok⟩ := fetchOk_of_reaches hraw hdrive hsum hin h
      obtain ⟨-, hpasses, hwhole⟩ := (fetchOk_blk_iff s).mp hok
      exact .inr ⟨rfl, hwp, hfp, hpasses, hnext, hwhole⟩
  · rintro (⟨rfl, hfp, hpasses⟩ | ⟨rfl, hwp, hfp, hpasses, hnext, hwhole⟩) byte buffer curBlk sram
    · rw [← hsum] at hin ⊢
      exact read_transfers fuel (s := s.over byte buffer curBlk sram) hraw hdrive
        ((delivered_iff _).mpr ⟨hfp, hpasses, hin⟩)
    · have hopen : s.card.fp ≠ none := by
        rw [hfp]
        decide
      have hok : FetchOk (s.over byte buffer curBlk sram).card s.blk :=
        (fetchOk_blk_iff (s.over byte buffer curBlk sram)).mpr ⟨hopen, hpasses, hwhole⟩
      have hall : (s.over byte buffer curBlk sram).accepts = 512 := Fault.accepts_eq.mpr hnext
      obtain ⟨s', hrun, herr, hsram, himage⟩ :=
        write_own fuel (s := s.over byte buffer curBlk sram) hraw hdrive hwp hfp hok
      have hfar := (off_le s).trans hall.ge
      exact ⟨s', hrun, herr.mpr hall, hsum ▸ write_transfers hok hsram himage hfar⟩

/-- An image with drive A alone, which does not end with a block, and its
last sector addressed. -/
def driveA : State :=
  { State.initial ⟨⟨256256, fun _ => 0⟩, some true, fun _ => 0, 0, some true, []⟩ with
    sram := fun _ => 0xe5
    track := 76
    sect := 26 }

def lastSector : Sector := ⟨0, 76, 26, by decide⟩

/-- It can be read, but not written. -/
theorem sector_reached_last :
    Reaches 0 driveA 0 lastSector.pos ∧ ¬Reaches 0 driveA 1 lastSector.pos := by
  have hat : driveA.At lastSector := ⟨rfl, rfl, rfl⟩
  refine ⟨(sector_reached_iff 0 hat rfl (.inl rfl) (by decide)).mpr
    (.inl ⟨rfl, by decide, trivial⟩), fun h => ?_⟩
  rcases (sector_reached_iff 0 hat rfl (.inr rfl) (by decide)).mp h with
    ⟨hval, -⟩ | ⟨-, -, -, -, -, hwhole⟩
  · exact absurd hval (by decide)
  · exact absurd hwhole (by decide)

/-- The write reports success, and the data are in sector 2 of track 0. -/
theorem sector_missed : ∃ s', out 0 13 1 driveA = some ((), s') ∧ s'.diskErr = 0
    ∧ s'.card.image.byte 128 = 0xe5 ∧ s'.card.image.byte lastSector.pos = 0
    ∧ ¬Transferred 1 driveA s' lastSector.pos := by
  have hno : ¬FetchOk driveA.card driveA.blk := by
    rw [fetchOk_blk_iff]
    rintro ⟨-, -, hwhole⟩
    exact absurd hwhole (by decide)
  obtain ⟨s', hrun, herr, himage⟩ := write_strays 0 (s := driveA) rfl (.inl rfl) rfl rfl hno rfl
    (by decide)
  have hthere : s'.card.image.byte 128 = 0xe5 := by
    rw [himage]
    exact (fwriteFirst_add (i := 128) (by decide)).trans (pending_sector driveA (i := 0) (by decide))
  have hlast : s'.card.image.byte lastSector.pos = 0 := by
    rw [himage]
    exact fwriteFirst_out (.inr (by decide)) (by decide)
  refine ⟨s', hrun, herr.mpr rfl, hthere, hlast, fun h => ?_⟩
  have hsplice := (transferred_write.mp h).2.2 lastSector.pos (by decide)
  rw [hlast, splice_in le_rfl (by decide)] at hsplice
  exact absurd (show (0 : Byte) = 0xe5 from hsplice) (by decide)

/-! ## The drives and their regions -/

/-- The bytes of the card that belong to a drive: the first 77 × 26 sectors
to drive A, and 255 × 128 from there on to drive I. -/
def Own (drive : Byte) (i : Nat) : Prop :=
  if drive = 0 then i < 256256 else 256256 ≤ i ∧ i < diskBytes

instance (drive : Byte) (i : Nat) : Decidable (Own drive i) :=
  inferInstanceAs (Decidable (ite _ _ _))

/-- A command has either worked on 128 bytes of its own drive, not for the
sake of a sector 0, or on none. -/
def Confined (val : Byte) (s s' : State) : Prop :=
  (s.sect ≠ 0 ∧ ∃ q, Own s.drive q ∧ Own s.drive (q + 127) ∧ Transferred val s s' q)
    ∨ Contained s s'

/-- The command is confined whatever the contents and whatever the card
buffer has held. -/
def Confines (fuel : Nat) (s : State) (val : Byte) : Prop :=
  ∀ byte buffer curBlk sram, ∃ s',
    out fuel 13 val (s.over byte buffer curBlk sram) = some ((), s')
      ∧ Confined val (s.over byte buffer curBlk sram) s'

/-- Sectors count from 1, and track and sector together stay below the
number of sectors of the drive. -/
def State.Within (s : State) : Prop :=
  1 ≤ s.sect.toNat
    ∧ if s.drive = 0 then s.track.toNat * 26 + s.sect.toNat ≤ 77 * 26
      else s.track.toNat * 128 + s.sect.toNat ≤ 255 * 128

instance (s : State) : Decidable s.Within :=
  inferInstanceAs (Decidable (_ ∧ ite _ _ _))

theorem within_iff {s : State} (hsect : 1 ≤ s.sect.toNat) :
    s.Within ↔ Own s.drive s.place ∧ Own s.drive (s.place + 127) := by
  rw [State.Within, Own, Own, State.place, Machine.place, diskBytes]
  split <;> omega

theorem own_between {drive : Byte} {q i : Nat} (h : Own drive q) (h' : Own drive (q + 127))
    (hi : i < 128) : Own drive (q + i) := by
  rw [Own] at h h' ⊢
  split at h <;> simp_all <;> omega

theorem one_le_sect {s : State} (h : s.sect ≠ 0) : 1 ≤ s.sect.toNat := by
  by_contra hno
  exact h (BitVec.eq_of_toNat_eq (by rw [show (0 : Byte).toNat = 0 from rfl]; omega))

theorem sect_ne_zero {s : State} (h : 1 ≤ s.sect.toNat) : s.sect ≠ 0 := by
  intro hno
  rw [hno] at h
  exact absurd h (by decide)

theorem own_lt {drive : Byte} {i : Nat} (h : Own drive i) : i < diskBytes := by
  rw [Own] at h
  rw [diskBytes] at h ⊢
  split at h <;> omega

theorem not_contained {s s' : State} (h : s'.diskErr = 0) : ¬Contained s s' := fun hcont =>
  hcont.1 h

/-- A read keeps to the drive only if track and sector do, and all of it
is delivered: the drive is zeros, and everything else is ones. -/
theorem within_of_shown {fuel : Nat} {s s' : State} (hraw : s.sdFat = 0)
    (hdrive : s.drive = 0 ∨ s.drive = 8)
    (hbyte : s.card.image.byte = fun i => if Own s.drive i then 0 else 1)
    (hbuf : ∀ k, s.card.buffer k = 1) (hrun : out fuel 13 0 s = some ((), s'))
    (hconf : Confined 0 s s') :
    s.Within ∧ s.card.fp ≠ none ∧ s.card.fault.Passes (s.place % 512 + 128) := by
  obtain ⟨t, hrun', herr, -⟩ := read_run fuel hraw hdrive
  obtain rfl := out_unique hrun' hrun
  obtain ⟨hne, q, hfirst, hlast, htr⟩ := hconf.resolve_right (not_contained herr)
  obtain ⟨hgot, hzero⟩ := delivered_of_shown hbuf fun i hi => by
    rw [read_shows hraw hdrive hrun htr hi, hbyte]
    exact if_pos (own_between hfirst hlast hi)
  obtain ⟨-, hmod, hsum⟩ := blk_off_place (one_le_sect hne)
  have hplace : ∀ i < 128, Own s.drive (s.place + i) := by
    intro i hi
    have hat := hzero i hi
    rw [hbyte, ← Nat.add_assoc, hsum] at hat
    by_contra hno
    exact absurd ((if_neg hno).symm.trans hat) (by decide)
  obtain ⟨hfp, hpasses, -⟩ := (delivered_iff s).mp hgot
  exact ⟨(within_iff (one_le_sect hne)).mpr ⟨hplace 0 (by decide), hplace 127 (by decide)⟩, hfp,
    hmod ▸ hpasses⟩

/-- A read is confined if it stays within its drive and is delivered. -/
theorem read_confines (fuel : Nat) {s : State} (hraw : s.sdFat = 0)
    (hdrive : s.drive = 0 ∨ s.drive = 8) (hcovers : diskBytes ≤ s.card.image.len) :
    Confines fuel s 0
      ↔ s.Within ∧ s.card.fp ≠ none ∧ s.card.fault.Passes (s.place % 512 + 128) := by
  constructor
  · intro h
    let own : Nat → Byte := fun i => if Own s.drive i then 0 else 1
    obtain ⟨s', hrun, hconf⟩ := h own (fun _ => 1) 0 s.sram
    exact within_of_shown (s := s.over own (fun _ => 1) 0 s.sram) hraw hdrive rfl
      (fun _ => rfl) hrun hconf
  · rintro ⟨hwithin, hfp, hpasses⟩ byte buffer curBlk sram
    obtain ⟨hfirst, hlast⟩ := (within_iff hwithin.1).mp hwithin
    obtain ⟨-, hoff, hsum⟩ := blk_off_place hwithin.1
    have hlt := own_lt hlast
    have hlen : s.blk.toNat + s.off.toNat + 128 ≤ s.card.image.len := by omega
    obtain ⟨s', hrun, -, htr⟩ := read_transfers fuel (s := s.over byte buffer curBlk sram) hraw
      hdrive ((delivered_iff _).mpr ⟨hfp, hoff ▸ hpasses, hlen⟩)
    exact ⟨s', hrun, .inl ⟨sect_ne_zero hwithin.1, s.place, hfirst, hlast, hsum ▸ htr⟩⟩

/-- A block outside a drive, and not the one addressed. -/
def State.outside (s : State) : ULong :=
  if s.drive = 0 then if s.blk.toNat = 256512 then 257024#64 else 256512#64 else s.elsewhere

theorem outside_apart (s : State) : s.outside.toNat % 512 = 0 ∧ s.outside.toNat < 2 ^ 63
    ∧ s.outside.toNat + 512 ≤ diskBytes ∧ s.outside.toNat ≠ s.blk.toNat
    ∧ ¬Own s.drive s.outside.toNat := by
  rw [State.outside, diskBytes]
  by_cases h : s.drive = 0
  · rw [if_pos h, Own, if_pos h]
    split
    case isTrue hblk =>
      rw [show (257024#64).toNat = 257024 from rfl]
      omega
    case isFalse hblk =>
      rw [show (256512#64).toNat = 256512 from rfl]
      omega
  · rw [if_neg h, Own, if_neg h, diskBytes, State.elsewhere]
    split
    case isTrue hblk =>
      rw [show (512#64).toNat = 512 from rfl]
      omega
    case isFalse hblk =>
      rw [show (0#64).toNat = 0 from rfl]
      omega

/-- A byte that a write has changed is one it was to write. -/
theorem transferred_at {s s' : State} {q i : Nat} (h : Transferred 1 s s' q)
    (hi : i < s.card.image.len) (hne : s'.card.image.byte i ≠ s.card.image.byte i) :
    q ≤ i ∧ i < q + 128 := by
  by_contra hno
  exact hne (((transferred_write.mp h).2.2 i hi).trans (splice_out (by omega)))

/-- A write that has its block keeps to the drive only if track and sector
do, and the store takes all of the sector, or none of it: on an image of
zeros, written with twos, the bytes that change are those of the sector. -/
theorem within_of_confined {s s' : State} (hzero : ∀ i, s.card.image.byte i = 0)
    (htwo : ∀ addr, s.sram addr = 2) (hcovers : diskBytes ≤ s.card.image.len)
    (hok : FetchOk s.card s.blk)
    (himage : s'.card.image = fwriteFirst s.card.image s.pending s.blk s.accepts)
    (hconf : Confined 1 s s') :
    s.accepts ≤ s.off.toNat ∨ s.Within ∧ s.off.toNat + 128 ≤ s.accepts := by
  refine (le_or_gt s.accepts s.off.toNat).imp id fun hlate => ?_
  have hle := off_le s
  have hinside := hok.holds.inside
  have hcount : s.accepts ≤ 512 := Fault.accepts_le _
  have hwrote (i : Nat) (hi : s'.card.image.byte i = 2) (hlen : i < s.card.image.len) :
      s.blk.toNat + s.off.toNat ≤ i ∧ i < s.blk.toNat + s.off.toNat + 128
        ∧ i < s.blk.toNat + s.accepts := by
    by_contra hno
    refine absurd (hi.symm.trans ?_) (by decide : (2 : Byte) ≠ 0)
    rw [himage]
    by_cases hin : s.blk.toNat ≤ i ∧ i < s.blk.toNat + s.accepts
    · obtain ⟨k, rfl⟩ := Nat.exists_eq_add_of_le hin.1
      rw [fwriteFirst_add (by omega), pending_ok hok, splice_out (by omega),
        loaded_buffer _ _ (by omega)]
      exact hzero _
    · rw [fwriteFirst_out (by omega) hlen, hzero]
  have hnot : ¬Contained s s' := by
    intro hcont
    have hsame := fwriteFirst_eq_iff.mp (himage.symm.trans hcont.2.2)
    have hat := (hsame.resolve_left (by omega)).2 s.off.toNat hlate
    rw [hzero, ← Nat.add_zero s.off.toNat, pending_sector s (by decide), htwo] at hat
    exact absurd hat (by decide)
  obtain ⟨hne, q, hfirst, hlast, htr⟩ := hconf.resolve_right hnot
  have hput (i : Nat) (hi : i < 128) (hlen : q + i < s.card.image.len) :
      s'.card.image.byte (q + i) = 2 := by
    rw [(transferred_write.mp htr).2.2 _ hlen, splice_add hi, htwo]
  have hend := own_lt hlast
  have hlow := hwrote (q + 0) (hput 0 (by decide) (by omega)) (by omega)
  have hhigh := hwrote (q + 127) (hput 127 (by decide) (by omega)) (by omega)
  obtain ⟨-, -, hsum⟩ := blk_off_place (one_le_sect hne)
  obtain rfl : q = s.place := by omega
  exact ⟨(within_iff (one_le_sect hne)).mpr ⟨hfirst, hlast⟩, by omega⟩

/-- A write whose fetch has failed changes a byte outside the drive, if
the block in the buffer is one from there. -/
theorem not_confined_of_stray {s s' : State} (hpos : 0 < s.accepts)
    (hbyte : s.card.image.byte = fun i =>
      if s.outside.toNat ≤ i ∧ i < s.outside.toNat + 512 then 0 else 2)
    (hbuf : ∀ i, s.card.buffer i = 2) (htwo : ∀ addr, s.sram addr = 2)
    (hcovers : diskBytes ≤ s.card.image.len)
    (himage : s'.card.image = fwriteFirst s.card.image s.pending s.outside s.accepts) :
    ¬Confined 1 s s' := by
  obtain ⟨haligned, hnear, hin, hne, hown⟩ := outside_apart s
  have hblk : s.blk.toNat % 512 = 0 := (aligned_iff _).mp (blk_aligned s)
  have hpending : s.pending 0 = 2 := by
    rw [State.pending]
    by_cases hsect : s.off.toNat ≤ 0 ∧ 0 < s.off.toNat + 128
    · rw [splice_in hsect.1 hsect.2, htwo]
    · rw [splice_out (by omega)]
      by_cases hcame : 0 < s.card.delivered s.blk
      · rw [splice_in le_rfl (by omega), Image.block, hbyte]
        exact if_neg (by omega)
      · rw [splice_out (by omega), hbuf]
  have hchanged : s'.card.image.byte s.outside.toNat ≠ s.card.image.byte s.outside.toNat := by
    have hput : (fwriteFirst s.card.image s.pending s.outside s.accepts).byte (s.outside.toNat + 0)
        = s.pending 0 := fwriteFirst_add hpos
    rw [Nat.add_zero, ← himage] at hput
    rw [hput, hpending, hbyte]
    simp
  rintro (⟨-, q, hfirst, hlast, htr⟩ | hcont)
  · have hat := transferred_at htr (by omega) hchanged
    have hthere := own_between hfirst hlast (i := s.outside.toNat - q) (by omega)
    rw [Nat.add_sub_cancel' hat.1] at hthere
    exact hown hthere
  · exact hchanged (by rw [hcont.2.2])

/-- A write is confined if it is stopped without having written anything,
or has its block, and either does not get as far as the sector or stays
within its drive and writes all of it. -/
theorem write_confines (fuel : Nat) {s : State} (hraw : s.sdFat = 0)
    (hdrive : s.drive = 0 ∨ s.drive = 8) (hcovers : diskBytes ≤ s.card.image.len) :
    Confines fuel s 1
      ↔ s.wrPrt ≠ 0 ∨ s.card.fp ≠ some true ∨ s.accepts = 0
        ∨ s.card.fault.Passes 512 ∧ s.blk.toNat + 512 ≤ s.card.image.len
          ∧ (s.accepts ≤ s.off.toNat ∨ s.Within ∧ s.off.toNat + 128 ≤ s.accepts) := by
  constructor
  · intro h
    by_contra hgo
    simp only [not_or, not_not] at hgo
    obtain ⟨hwp, hfp, hpos, hno⟩ := hgo
    by_cases hok : FetchOk s.card s.blk
    · let t := s.over (fun _ => 0) (fun _ => 0) 0 fun _ => 2
      have hok' : FetchOk t.card t.blk := ⟨hok.opened, hok.aligned, hok.seeks, hok.whole⟩
      obtain ⟨s', hrun, hconf⟩ := h (fun _ => 0) (fun _ => 0) 0 fun _ => 2
      obtain ⟨t', hrun', -, -, himage⟩ := write_own fuel (s := t) hraw hdrive hwp hfp hok'
      obtain rfl := out_unique hrun' hrun
      obtain ⟨-, hpasses, hwhole⟩ := (fetchOk_blk_iff s).mp hok
      exact hno ⟨hpasses, hwhole,
        within_of_confined (s := t) (fun _ => rfl) (fun _ => rfl) hcovers hok' himage hconf⟩
    · let byte : Nat → Byte := fun i =>
        if s.outside.toNat ≤ i ∧ i < s.outside.toNat + 512 then 0 else 2
      let t := s.over byte (fun _ => 2) s.outside fun _ => 2
      have hok' : ¬FetchOk t.card t.blk := fun hok' =>
        hok ⟨hok'.opened, hok'.aligned, hok'.seeks, hok'.whole⟩
      obtain ⟨haligned, hnear, -⟩ := outside_apart s
      obtain ⟨s', hrun, hconf⟩ := h byte (fun _ => 2) s.outside fun _ => 2
      obtain ⟨t', hrun', -, himage⟩ :=
        write_strays fuel (s := t) hraw hdrive hwp hfp hok' haligned hnear
      obtain rfl := out_unique hrun' hrun
      exact not_confined_of_stray (s := t) (Nat.pos_of_ne_zero hpos) rfl (fun _ => rfl)
        (fun _ => rfl) hcovers himage hconf
  · intro hcond byte buffer curBlk sram
    let t := s.over byte buffer curBlk sram
    by_cases hstop : t.wrPrt ≠ 0 ∨ t.card.fp ≠ some true ∨ t.accepts = 0
    · obtain ⟨s', hrun, hcont⟩ := write_stops fuel (s := t) hraw hdrive hstop
      exact ⟨s', hrun, .inr hcont⟩
    · simp only [not_or, not_not] at hstop
      obtain ⟨hwp, hfp, hpos⟩ := hstop
      obtain ⟨hpasses, hwhole, hfar⟩ :=
        ((hcond.resolve_left (not_not_intro hwp)).resolve_left (not_not_intro hfp)).resolve_left
          hpos
      have hok : FetchOk t.card t.blk :=
        (fetchOk_blk_iff t).mpr ⟨by rw [hfp]; decide, hpasses, hwhole⟩
      obtain ⟨s', hrun, herr, hsram, himage⟩ := write_own fuel (s := t) hraw hdrive hwp hfp hok
      refine ⟨s', hrun, ?_⟩
      rcases hfar with hnear | ⟨hwithin, hfar⟩
      · have hle := off_le s
        have hshort : t.accepts ≠ 512 := ne_of_lt (hnear.trans_lt (by omega))
        exact .inr ⟨mt herr.mp hshort, hsram, himage.trans (write_short hok hnear)⟩
      · obtain ⟨hfirst, hlast⟩ := (within_iff hwithin.1).mp hwithin
        obtain ⟨-, -, hsum⟩ := blk_off_place hwithin.1
        exact .inl ⟨sect_ne_zero hwithin.1, s.place, hfirst, hlast,
          hsum ▸ write_transfers hok hsram himage hfar⟩

/-- In raw mode, on an image that covers both drives, a command keeps to
its drive if track and sector do and stdio brings it its bytes, for a
write the whole block. -/
theorem confined_iff (fuel : Nat) {s : State} {val : Byte} (hraw : s.sdFat = 0)
    (hdrive : s.drive = 0 ∨ s.drive = 8) (hval : val = 0 ∨ val = 1)
    (hcovers : diskBytes ≤ s.card.image.len) :
    Confines fuel s val
      ↔ (val = 0 ∧ s.Within ∧ s.card.fp ≠ none ∧ s.card.fault.Passes (s.place % 512 + 128))
        ∨ (val = 1 ∧ (s.wrPrt ≠ 0 ∨ s.card.fp ≠ some true
          ∨ s.accepts = 0
          ∨ s.card.fault.Passes 512 ∧ s.blk.toNat + 512 ≤ s.card.image.len
            ∧ (s.accepts ≤ s.off.toNat ∨ s.Within ∧ s.off.toNat + 128 ≤ s.accepts))) := by
  rcases hval with rfl | rfl
  · rw [read_confines fuel hraw hdrive hcovers]
    constructor
    · intro h
      exact .inl ⟨rfl, h⟩
    · rintro (⟨-, h⟩ | ⟨hno, -⟩)
      · exact h
      · exact absurd hno (by decide)
  · rw [write_confines fuel hraw hdrive hcovers]
    constructor
    · intro h
      exact .inr ⟨rfl, h⟩
    · rintro (⟨hno, -⟩ | ⟨-, h⟩)
      · exact absurd hno (by decide)
      · exact h

/-- Both drives on one image, zeros on drive A and ones on drive I, and
drive A selected. -/
def bothDrives (track sect : Byte) : State :=
  { State.initial ⟨⟨8661 * 512, fun i => if i < 256256 then 0 else 1⟩, some true, fun _ => 0, 0,
      some true, []⟩ with
    track := track
    sect := sect }

theorem confined_iff_read : Confines 0 (bothDrives 76 26) 0 ∧ ¬Confines 0 (bothDrives 77 1) 0 := by
  refine ⟨(confined_iff 0 rfl (.inl rfl) (.inl rfl) (by decide)).mpr
    (.inl ⟨rfl, by decide, by decide, trivial⟩), fun h => ?_⟩
  rcases (confined_iff 0 rfl (.inl rfl) (.inl rfl) (by decide)).mp h with
    ⟨-, hwithin, -⟩ | ⟨hno, -⟩
  · exact absurd hwithin.2 (by decide)
  · exact absurd hno (by decide)

/-- Sector 1 of track 77 of drive A is the first one of drive I. -/
theorem drives_overlap : ∃ s', out 0 13 0 (bothDrives 77 1) = some ((), s') ∧ s'.diskErr = 0
    ∧ s'.sram 0 = 1 ∧ ¬Confined 0 (bothDrives 77 1) s' := by
  have hgot : (bothDrives 77 1).off.toNat + 128
      ≤ (bothDrives 77 1).card.delivered (bothDrives 77 1).blk := by
    rw [delivered_iff]
    exact ⟨by decide, trivial, by decide⟩
  obtain ⟨s', hrun, herr, htr⟩ := read_transfers 0 (s := bothDrives 77 1) rfl (.inl rfl) hgot
  have hone : s'.sram 0 = 1 := by
    rw [(transferred_read.mp htr).1]
    decide
  refine ⟨s', hrun, herr, hone, fun hconf => ?_⟩
  obtain ⟨-, q, hfirst, -, hread⟩ := hconf.resolve_right (not_contained herr)
  have hzero : s'.sram 0 = (bothDrives 77 1).card.image.byte (q + 0) := by
    rw [(transferred_read.mp hread).1]
    rfl
  rw [hone] at hzero
  exact absurd (hzero.trans (if_pos hfirst)) (by decide)

end Machine

end CpMega88
