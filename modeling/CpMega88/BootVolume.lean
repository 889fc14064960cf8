import CpMega88.CardTest
import CpMega88.Monitor

/-!
# The volume `machine_boot` finds

`Fat16` says of the contents of a card that it has a partition table whose
first entry is a FAT16 volume with 512-byte sectors; `Image.geometry` is
what `fat_init` then reads from its boot sector (`fatInit_run`). On a card
that works `machine_boot` comes to the EEPROM with that geometry, the
directory at the root, the boot sector in the buffer, and the record of
the last request as it was before (`startup_run`).
-/

namespace CpMega88

open Bytes Sdcard Splice

namespace Fat

/-! ## FAT16 volumes -/

/-- Two and four bytes as `read2` and `read4` put them together. -/
def bytes2 (f : Nat → Byte) (a : Nat) : Word := word (f (a + 1)) (f a)

def bytes4 (f : Nat → Byte) (a : Nat) : ULong :=
  (bytes2 f (a + 2)).setWidth 64 <<< 16 ||| (bytes2 f a).setWidth 64

def Signed (f : Nat → Byte) : Prop := f 510 = 0x55 ∧ f 511 = 0xaa

/-- The boot sector of the first partition. -/
def bootAddr (image : Image) : ULong := bytes4 (image.block 0) 454 <<< 9

def bootSector (image : Image) : Nat → Byte := image.block (bootAddr image)

structure Fat16 (image : Image) : Prop where
  table : image.Holds 0
  tableSigned : Signed (image.block 0)
  kind : image.block 0 450 = 4 ∨ image.block 0 450 = 6
  boot : image.Holds (bootAddr image)
  bootSigned : Signed (bootSector image)
  sectorBytes : bytes2 (bootSector image) 11 = 512
  perCluster : bootSector image 13 ≠ 0

/-- What `fat_init` makes of the boot sector. -/
def geometry (image : Image) : Geometry where
  sectorsPerCluster := bootSector image 13
  fatFirstSect := bytes4 (image.block 0) 454
  reservedSectors := bytes2 (bootSector image) 14
  dirSector := bytes4 (image.block 0) 454 + (bytes2 (bootSector image) 14).setWidth 64
    + (bytes2 (bootSector image) 22).setWidth 64 * (bootSector image 16).setWidth 64
  dirEntries := bytes2 (bootSector image) 17
  dirSize := BitVec.ofNat 16 (((bytes2 (bootSector image) 17 >>> 4).toNat
    + (bootSector image 13).toNat - 1) / (bootSector image 13).toNat)

/-! ## `fat_init` -/

theorem onCard_fetch_ok {v : Volume} {blk : ULong} (h : FetchOk v.card blk) :
    onCard (Sdcard.fetch blk) v = some (0, v.withCard (v.card.loaded blk)) := by
  rw [onCard_run, fetch_ok h]

section Buffer

variable {v : Volume} {f : Nat → Byte} (h : ∀ i < 512, v.card.buffer i = f i)

include h

theorem read_run {off : Word} (a : Nat) (hoff : off.toNat = a) (ha : a < 512) :
    onCard (Sdcard.read off) v = some (f a, v) := by
  rw [← h a ha, ← hoff]
  rfl

theorem read2_run {off : Word} (a : Nat) (hoff : off.toNat = a) (ha : a < 511) :
    read2 off v = some (bytes2 f a, v) := by
  have hnext : (off + 1).toNat = a + 1 := toNat_add_one hoff (by omega)
  rw [read2, Prog.bind_of_run (read_run h (a + 1) hnext (by omega)),
    Prog.bind_of_run (read_run h a hoff (by omega))]
  rfl

theorem read4_run {off : Word} (a : Nat) (hoff : off.toNat = a) (ha : a < 509) :
    read4 off v = some (bytes4 f a, v) := by
  have hnext : (off + 2).toNat = a + 2 := @toNat_add_ofNat 16 off a 2 hoff (by omega)
  rw [read4, Prog.bind_of_run (read2_run h (a + 2) hnext (by omega)),
    Prog.bind_of_run (read2_run h a hoff (by omega))]
  rfl

theorem signature_run (hf : Signed f) : signature v = some (true, v) := by
  rw [signature, Prog.bind_of_run (read_run h 510 rfl (by decide)),
    Prog.bind_of_run (read_run h 511 rfl (by decide)), hf.1, hf.2]
  rfl

theorem signature_fails (hf : ¬Signed f) : signature v = some (false, v) := by
  have hno : decide (f 510 = 0x55#8 ∧ f 511 = 0xaa#8) = false := decide_eq_false hf
  rw [signature, Prog.bind_of_run (read_run h 510 rfl (by decide)),
    Prog.bind_of_run (read_run h 511 rfl (by decide)), Prog.pure_run, hno]

end Buffer

/-- The state that `fat_init` leaves on a FAT16 volume. -/
def Volume.inited (v : Volume) : Volume where
  toGeometry := geometry v.card.image
  card := (v.card.loaded 0).loaded (bootAddr v.card.image)
  dirOffset := 0xffff
  dirCluster := 0
  fileCluster := v.fileCluster
  fileOffset := v.fileOffset
  fileSize := v.fileSize
  lastCluster := v.lastCluster
  lastOffset := v.lastOffset

/-- A partition table can be read whose first entry is of a type that
`fat_init` takes for FAT16. -/
structure Partitioned (card : Card) : Prop where
  table : FetchOk card 0
  signed : Signed (card.image.block 0)
  kind : card.image.block 0 450 = 4 ∨ card.image.block 0 450 = 6

/-- And so can the boot sector of that partition. -/
structure BootRead (card : Card) : Prop extends Partitioned card where
  boot : FetchOk (card.loaded 0) (bootAddr card.image)
  bootSigned : Signed (bootSector card.image)

/-- A partition type of 4 or 6, as the signed `fs_desc`. -/
theorem kind_iff (c : Byte) : ¬(c.toInt ≠ 4 ∧ c.toInt ≠ 6) ↔ c = 4 ∨ c = 6 := by
  have h4 : c.toInt = 4 ↔ c = 4 := by rw [← BitVec.toInt_inj]; rfl
  have h6 : c.toInt = 6 ↔ c = 6 := by rw [← BitVec.toInt_inj]; rfl
  rw [← h4, ← h6]
  tauto

/-- `fat_init` once the partition has been found: what is read from its
boot sector. -/
def bootInit (fsDesc : Int) (fatFirstSect : ULong) : FatM Int := do
  if (← onCard (Sdcard.fetch (fatFirstSect <<< 9))) < 0 then return -3
  else if !(← signature) then return -4
  else
    let bytesPerSector ← read2 11
    let numberOfFats ← onCard (Sdcard.read 16)
    let sectorsPerFat ← read2 22
    let reservedSectors ← read2 14
    let sectorsPerCluster ← onCard (Sdcard.read 13)
    let dirEntries ← read2 17
    if sectorsPerCluster = 0 then failure
    else
      modify fun v => { v with
        reservedSectors := reservedSectors
        sectorsPerCluster := sectorsPerCluster
        dirEntries := dirEntries
        dirSector := fatFirstSect + reservedSectors.setWidth 64
          + sectorsPerFat.setWidth 64 * numberOfFats.setWidth 64
        dirSize := BitVec.ofNat 16 (((dirEntries >>> 4).toNat + sectorsPerCluster.toNat - 1)
          / sectorsPerCluster.toNat) }
      if bytesPerSector ≠ 512 then return -5
      else
        modify fun v => { v with dirCluster := 0 }
        fatRewind
        return fsDesc

/-- The volume once the partition has been found. -/
def Volume.parted (v : Volume) : Volume :=
  { v.withCard (v.card.loaded 0) with fatFirstSect := bytes4 (v.card.image.block 0) 454 }

theorem fatInit_found {v : Volume} (h : Partitioned v.card) : fatInit v
    = bootInit (v.card.image.block 0 450).toInt (bytes4 (v.card.image.block 0) 454) v.parted := by
  have hfirst : ∀ i < 512, (v.card.loaded 0).buffer i = v.card.image.block 0 i :=
    fun i hi => loaded_buffer _ _ hi
  rw [fatInit, Prog.bind_of_run (onCard_fetch_ok h.table), Prog.ite_run, if_neg (by decide),
    Prog.bind_of_run (read_run hfirst 450 rfl (by decide)),
    Prog.bind_of_run (signature_run hfirst h.signed), Prog.ite_run, if_neg (by decide),
    Prog.ite_run, if_neg ((kind_iff _).mpr h.kind),
    Prog.bind_of_run (read4_run hfirst 454 rfl (by decide)), Prog.modify_bind_run]
  rfl

theorem parted_fetch {v : Volume} (h : FetchOk (v.card.loaded 0) (bootAddr v.card.image)) :
    onCard (Sdcard.fetch (bytes4 (v.card.image.block 0) 454 <<< 9)) v.parted
      = some (0, v.parted.withCard ((v.card.loaded 0).loaded (bootAddr v.card.image))) :=
  onCard_fetch_ok h

/-- A boot sector that is signed is read. -/
theorem bootInit_read {v : Volume} (fsDesc : Int) (h : BootRead v.card) :
    bootInit fsDesc (bytes4 (v.card.image.block 0) 454) v.parted
      = if bootSector v.card.image 13 = 0 then none
        else if bytes2 (bootSector v.card.image) 11 ≠ 512 then
          some (-5, { v.inited with dirOffset := v.dirOffset, dirCluster := v.dirCluster })
        else some (fsDesc, v.inited) := by
  have hsecond : ∀ i < 512, ((v.card.loaded 0).loaded (bootAddr v.card.image)).buffer i
      = bootSector v.card.image i := fun i hi => loaded_buffer _ _ hi
  rw [bootInit, Prog.bind_of_run (parted_fetch h.boot), Prog.ite_run, if_neg (by decide),
    Prog.bind_of_run (signature_run hsecond h.bootSigned), Prog.ite_run, if_neg (by decide),
    Prog.bind_of_run (read2_run hsecond 11 rfl (by decide)),
    Prog.bind_of_run (read_run hsecond 16 rfl (by decide)),
    Prog.bind_of_run (read2_run hsecond 22 rfl (by decide)),
    Prog.bind_of_run (read2_run hsecond 14 rfl (by decide)),
    Prog.bind_of_run (read_run hsecond 13 rfl (by decide)),
    Prog.bind_of_run (read2_run hsecond 17 rfl (by decide)), Prog.ite_run]
  refine ite_congr rfl (fun _ => rfl) fun _ => ?_
  rw [Prog.modify_bind_run, Prog.ite_run]
  rfl

theorem fatInit_run {v : Volume} (h : Fat16 v.card.image) (hfp : v.card.fp ≠ none)
    (hquiet : v.card.faults = []) :
    fatInit v = some ((v.card.image.block 0 450).toInt, v.inited) := by
  have hfault : (v.card.loaded 0).fault = .none := fault_of_quiet (tail_of_quiet hquiet)
  have hholds : (v.card.loaded 0).image.Holds (bootAddr v.card.image) := h.boot
  have hpart : Partitioned v.card :=
    ⟨h.table.fetchOk hfp (fault_of_quiet hquiet), h.tableSigned, h.kind⟩
  rw [fatInit_found hpart, bootInit_read _ ⟨hpart, hholds.fetchOk hfp hfault, h.bootSigned⟩,
    if_neg h.perCluster, if_neg (not_not_intro h.sectorBytes)]

/-- The ways `fat_init` ends, and what it returns: an error for each thing
it checks, the type of the partition, or nothing when it divides by the
sectors per cluster, which it does not check. -/
inductive InitEnds (card : Card) : Option Int → Prop
  | tableUnread : ¬FetchOk card 0 → InitEnds card (some (-1))
  | tableUnsigned : FetchOk card 0 → ¬Signed (card.image.block 0) → InitEnds card (some (-2))
  | otherKind : FetchOk card 0 → Signed (card.image.block 0) →
      ¬(card.image.block 0 450 = 4 ∨ card.image.block 0 450 = 6) →
      InitEnds card (some (-80 - (card.image.block 0 450).toInt))
  | bootUnread : Partitioned card → ¬FetchOk (card.loaded 0) (bootAddr card.image) →
      InitEnds card (some (-3))
  | bootUnsigned : Partitioned card → FetchOk (card.loaded 0) (bootAddr card.image) →
      ¬Signed (bootSector card.image) → InitEnds card (some (-4))
  | traps : BootRead card → bootSector card.image 13 = 0 → InitEnds card none
  | otherSectors : BootRead card → bootSector card.image 13 ≠ 0 →
      bytes2 (bootSector card.image) 11 ≠ 512 → InitEnds card (some (-5))
  | fat16 : BootRead card → bootSector card.image 13 ≠ 0 →
      bytes2 (bootSector card.image) 11 = 512 →
      InitEnds card (some (card.image.block 0 450).toInt)

theorem onCard_fetch_fails {v : Volume} {blk : ULong} (h : ¬FetchOk v.card blk) :
    ∃ e v', onCard (Sdcard.fetch blk) v = some (e, v') ∧ e < 0 := by
  obtain ⟨e, count, faults, hrun, he, -⟩ := fetch_fails h
  exact ⟨e, _, by rw [onCard_run, hrun], he⟩

theorem bootInit_ends {v : Volume} (h : Partitioned v.card) :
    InitEnds v.card ((bootInit (v.card.image.block 0 450).toInt
      (bytes4 (v.card.image.block 0) 454) v.parted).map Prod.fst) := by
  by_cases hboot : FetchOk (v.card.loaded 0) (bootAddr v.card.image)
  case neg =>
    obtain ⟨e, v', hrun, he⟩ := @onCard_fetch_fails v.parted _ hboot
    rw [bootAddr] at hrun
    rw [bootInit, Prog.bind_of_run hrun, Prog.ite_run, if_pos he]
    exact .bootUnread h hboot
  by_cases hsigned : Signed (bootSector v.card.image)
  case neg =>
    have hsecond : ∀ i < 512, ((v.card.loaded 0).loaded (bootAddr v.card.image)).buffer i
        = bootSector v.card.image i := fun i hi => loaded_buffer _ _ hi
    rw [bootInit, Prog.bind_of_run (parted_fetch hboot), Prog.ite_run, if_neg (by decide),
      Prog.bind_of_run (signature_fails hsecond hsigned), Prog.ite_run, if_pos (by decide)]
    exact .bootUnsigned h hboot hsigned
  have hread : BootRead v.card := ⟨h, hboot, hsigned⟩
  rw [bootInit_read _ hread]
  split_ifs with hzero hbytes
  · exact .traps hread hzero
  · exact .otherSectors hread hzero hbytes
  · exact .fat16 hread hzero (not_not.mp hbytes)

theorem fatInit_ends (v : Volume) : InitEnds v.card ((fatInit v).map Prod.fst) := by
  by_cases htable : FetchOk v.card 0
  case neg =>
    obtain ⟨e, v', hrun, he⟩ := onCard_fetch_fails htable
    rw [fatInit, Prog.bind_of_run hrun, Prog.ite_run, if_pos he]
    exact .tableUnread htable
  by_cases hpart : Partitioned v.card
  case pos =>
    rw [fatInit_found hpart]
    exact bootInit_ends hpart
  have hfirst : ∀ i < 512, (v.card.loaded 0).buffer i = v.card.image.block 0 i :=
    fun i hi => loaded_buffer _ _ hi
  rw [fatInit, Prog.bind_of_run (onCard_fetch_ok htable), Prog.ite_run, if_neg (by decide),
    Prog.bind_of_run (read_run hfirst 450 rfl (by decide))]
  by_cases hsigned : Signed (v.card.image.block 0)
  case neg =>
    rw [Prog.bind_of_run (signature_fails hfirst hsigned), Prog.ite_run, if_pos (by decide)]
    exact .tableUnsigned htable hsigned
  have hkind := fun hkind => hpart ⟨htable, hsigned, hkind⟩
  rw [Prog.bind_of_run (signature_run hfirst hsigned), Prog.ite_run, if_neg (by decide),
    Prog.ite_run, if_pos (not_not.mp (mt (kind_iff _).mp hkind))]
  exact .otherKind htable hsigned hkind

end Fat

/-! ## Up to the EEPROM -/

namespace Machine

open Fat (Fat16 Volume)

theorem openFat_run {s : State} (h : Fat16 s.card.image) (hfp : s.card.fp ≠ none)
    (hquiet : s.card.faults = []) :
    ∃ u t, openFat s = some (u, t) ∧ ∃ console,
      t = { s with volume := s.volume.inited, sdFat := 1, console := console } := by
  have hinit := onVolume_of_run (s := s) (Fat.fatInit_run h hfp hquiet)
  rw [openFat, Prog.bind_of_run hinit]
  refine (puts_returns (R := Prints) _).andThen ?_
  rintro _ _ ⟨c, rfl⟩
  rcases h.kind with h4 | h6
  · have h4' : s.volume.card.image.block 0 450 = 4 := h4
    rw [h4']
    refine ⟨_, _, rfl, _, rfl⟩
  · have h6' : s.volume.card.image.block 0 450 = 6 := h6
    rw [h6']
    refine ⟨_, _, rfl, _, rfl⟩

/-- The card after `sdcard_init` and `sdcard_open`. -/
def reopened (card : Card) : Card := { card with curBlk := 0, fp := card.access }

/-- `machine_boot` has come to the EEPROM. -/
structure Arrived (r u : State) : Prop where
  volume : u.volume
    = Volume.inited { r.volume with card := (reopened r.volume.card).loaded 0 }
  mode : u.sdFat = 1
  eeprom : u.eeprom = r.eeprom

theorem openSd_run {fuel : Nat} {s : State} (hfuel : 128 < fuel) (hquiet : s.card.faults = [])
    (hok : FetchOk { s.card with fp := s.card.access } 0) :
    ∃ u t, openSd fuel s = some (u, t)
      ∧ RamOnly (s.withCard ({ s.card with fp := s.card.access }.loaded 0)) t := by
  have hopen : onCard openCard s = some (0, s.withCard { s.card with fp := s.card.access }) := by
    rw [onCard_run, openCard, Runs.modify_bind_run, Runs.get_bind_run]
    have hfp : s.card.access ≠ none := hok.opened
    show some ((if s.card.access = none then -1 else 0 : Int), _) = _
    rw [if_neg hfp]
    rfl
  rw [openSd, Prog.bind_of_run hopen, Prog.ite_run, if_pos (by decide)]
  refine (putsln_returns (R := Prints) _).andThen ?_
  rintro _ _ ⟨c, rfl⟩
  obtain ⟨u, t, ht, hram⟩ := sdcChk_run (s := { s.withCard { s.card with fp := s.card.access } with
    console := c }) hfuel hquiet hok
  exact ⟨u, t, ht, IsTrans.trans _ _ _ ⟨_, c, rfl⟩ hram⟩

/-- The volume when `machine_boot` has come to `fat_init`: the card is open
and has been tested. -/
def State.tested (r : State) : Volume :=
  { r.volume with card := (reopened r.volume.card).loaded 0 }

/-- On a working card `machine_boot` comes to `fat_init`, and ends as what
it does from there on ends. -/
theorem startup_tested {fuel : Nat} {r : State} {Q : Bool → State → Prop} (hfuel : 128 < fuel)
    (h : r.card.image.Holds 0) (haccess : r.card.access ≠ none) (hquiet : r.card.faults = [])
    (hrest : ∀ t, t.volume = r.tested → t.eeprom = r.eeprom →
      ∃ b u, (do openFat; configure fuel) t = some (b, u) ∧ Q b u) :
    ∃ b u, startup fuel r = some (b, u) ∧ Q b u := by
  have hinit : onCard Sdcard.init r
      = some ((), r.withCard { r.card with curBlk := 0, fp := none }) := rfl
  rw [startup, Prog.bind_of_run hinit]
  refine (putsln_returns (R := Prints) _).andThen ?_
  rintro _ _ ⟨c, rfl⟩
  refine (memChk_returns (R := RamOnly)).andThen ?_
  rintro _ _ ⟨sram, c', rfl⟩
  have hfault : (reopened r.card).fault = .none := fault_of_quiet hquiet
  have hholds : (reopened r.card).image.Holds 0 := h
  have hok := hholds.fetchOk haccess hfault
  obtain ⟨_, t, ht, hram⟩ := openSd_run (s := {
    r.withCard { r.card with curBlk := 0, fp := none } with sram := sram, console := c' })
    hfuel hquiet hok
  have hvolume : t.volume = r.tested := by
    obtain ⟨sram', c'', rfl⟩ := hram
    rfl
  have hrom : t.eeprom = r.eeprom := by
    obtain ⟨sram', c'', rfl⟩ := hram
    rfl
  rw [Prog.bind_of_run ht]
  exact hrest t hvolume hrom

/-- On a working card with a FAT16 volume `machine_boot` comes to the
EEPROM, and ends as what it does about that ends. -/
theorem startup_run {fuel : Nat} {r : State} {Q : Bool → State → Prop} (hfuel : 128 < fuel)
    (h : Fat16 r.card.image) (haccess : r.card.access ≠ none) (hquiet : r.card.faults = [])
    (hrest : ∀ u, Arrived r u → ∃ b t, configure fuel u = some (b, t) ∧ Q b t) :
    ∃ b t, startup fuel r = some (b, t) ∧ Q b t := by
  refine startup_tested hfuel h.table haccess hquiet fun t hvolume hrom => ?_
  have hcard : t.card = (reopened r.card).loaded 0 := congrArg Volume.card hvolume
  have hquiet' : ((reopened r.card).loaded 0).faults = [] := tail_of_quiet hquiet
  obtain ⟨_, u, hu, c, rfl⟩ := openFat_run (s := t) (hcard ▸ h) (hcard ▸ haccess)
    (hcard ▸ hquiet')
  rw [Prog.bind_of_run hu]
  exact hrest _ ⟨congrArg Volume.inited hvolume, rfl, hrom⟩

/-! ## The image and the EEPROM on the way -/

/-- Whatever the card does, `machine_boot` comes to the EEPROM, if it
does, with the image and the EEPROM as they were. -/
theorem startup_sameStore {fuel : Nat} {s t : State} {b : Bool}
    (hrun : startup fuel s = some (b, t)) :
    ∃ u, SameStore s u ∧ configure fuel u = some (b, t) := by
  have hbefore : Prog.Keeps SameStore (do
      onCard Sdcard.init
      putsln (ascii "\r\nbooting CP/Mega88 done.")
      memChk
      openSd fuel
      openFat) :=
    .bind (onVolume_keeps Fat.init_keeps) fun _ => .bind (putsln_returns _).keeps fun _ =>
      .bind memChk_returns.keeps fun _ => .bind (openSd_keeps fuel) fun _ => openFat_keeps
  obtain ⟨_, s₁, h₁, hrun⟩ := Prog.bind_eq_some.mp hrun
  obtain ⟨_, s₂, h₂, hrun⟩ := Prog.bind_eq_some.mp hrun
  obtain ⟨_, s₃, h₃, hrun⟩ := Prog.bind_eq_some.mp hrun
  obtain ⟨_, s₄, h₄, hrun⟩ := Prog.bind_eq_some.mp hrun
  obtain ⟨_, u, h₅, hrun⟩ := Prog.bind_eq_some.mp hrun
  refine ⟨u, hbefore s () u ?_, hrun⟩
  rw [Prog.bind_of_run h₁, Prog.bind_of_run h₂, Prog.bind_of_run h₃, Prog.bind_of_run h₄]
  exact h₅

end Machine

end CpMega88
