import CpMega88.Controller
import CpMega88.Monitor
import CpMega88.OpenFile

/-!
# The guest and the rest of the card

Once a file is mounted the guest's disk commands go through the file's
cluster chain. `guest_isolation` says what a write then can change: data
blocks of the chain of the file that was mounted, and nothing else on the
card. The invariant (`Inv`) is about the record of the last request: if
it names the open file, then the block in the buffer is one of the
file's.

Without a mounted file there is no such protection: the directory can be
written (`directory_written`), and after a `mount` that failed anything
can (`raw_after_mount`). Nor is there any for a request that cannot be
served; `Event.Safe` says which steps are none of that kind.
-/

namespace CpMega88

open Bytes Sdcard Splice

/-! ## A guest at work -/

namespace Machine

open Fat (FatM Volume Formatted Sound Served OwnBlock ChainBlock fatNext fatName fatOpen fatInit
  blankImage blankCard)

/-- A file is open, and the disk commands go to it. -/
def State.mounted (s : State) : Prop := s.sdFat ≠ 0 ∧ s.volume.fileCluster ≠ 0

/-- If a file is open, its chain is sound and the block can be served. -/
def AccessSafe (s : State) (blk : ULong) : Prop :=
  s.mounted → Sound s.volume.toGeometry s.volume.card.image s.volume.fileCluster
    ∧ Served s.volume (s.volume.sought blk)

/-- A command of the monitor, or what the guest does to a port or to its
memory. -/
inductive Event where
  | mount (name : List Byte)
  | cd (arg : Option (List Byte))
  | ls
  | boot
  | out (port val : Byte)
  | input (port : Byte)
  | poke (addr : Word) (data : Byte)

def Event.run (fuel : Nat) : Event → MachineM Unit
  | .mount name => Machine.mount fuel name
  | .cd arg => Machine.cd fuel arg
  | .ls => Machine.ls fuel
  | .boot => Machine.boot fuel
  | .out port val => Machine.out fuel port val
  | .input port => discard (Machine.input port)
  | .poke addr data => sramWrite addr data

/-- The entry that the volume is at is in the current directory, and no
directory; the open file is another chain than that directory. -/
structure RegularFile (v : Volume) : Prop where
  listed : Fat.Holding v v.dirCluster (v.dirOffset.setWidth 64 <<< 5)
  file : v.entryAttr &&& 0x10#8 = 0
  apart : v.fileCluster ≠ v.dirCluster

/-- The steps that are considered: a `mount` that succeeds has opened a
regular file, the blocks asked for can be served, and the record of the
open file is not bypassed. -/
def Event.Safe (fuel : Nat) : Event → State → Prop
  | .mount name, s => ∀ s', Machine.mount fuel name s = some ((), s') → s'.sdFat ≠ 0 →
    RegularFile s'.volume
  | .cd none, s => s.mounted → s.volume.lastCluster ≠ s.volume.fileCluster
  | .cd (some _), s | .ls, s => s.mounted → s.volume.dirCluster ≠ s.volume.fileCluster
  | .boot, s => ∀ i < 13, ∀ t, Prog.upTo i (bootBlock fuel) s = some ((), t) →
    AccessSafe t (BitVec.ofNat 64 i <<< 9)
  | .out port _, s => port = 13 → s.drive = 0 ∨ s.drive = 8 → AccessSafe s s.blk
  | _, _ => True

/-! ## The invariant -/

/-- What `fat_init` leaves, whether or not it has succeeded: without
entries in the root directory nothing can be mounted. -/
structure Sized (s : State) : Prop where
  dirSector : s.volume.dirSector.toNat < 2 ^ 33
  clusters : s.volume.dirEntries ≠ 0 ∨ s.mounted → s.volume.sectorsPerCluster ≠ 0

theorem Sized.formatted {s : State} (h : Sized s) (hm : s.mounted) :
    Formatted s.volume.toGeometry :=
  ⟨h.dirSector, h.clusters (.inr hm)⟩

/-- While the record names the open file, the block in the buffer is one
of the file's. -/
structure Inv (s : State) : Prop where
  sized : Sized s
  own : s.mounted → s.volume.lastCluster = s.volume.fileCluster → OwnBlock s.volume

theorem SameFile.mounted {s s' : State} (h : SameFile s s') : s'.mounted ↔ s.mounted := by
  obtain ⟨hmode, -, hfile⟩ := h
  rw [State.mounted, State.mounted, hmode, hfile]

theorem SameFile.sized {s s' : State} (h : SameFile s s') (hs : Sized s) : Sized s' := by
  have hgeo := h.2.1
  constructor
  · rw [hgeo]
    exact hs.dirSector
  · rw [hgeo, h.mounted]
    exact hs.clusters

theorem SameDisk.inv {s s' : State} (h : SameDisk s s') (hs : Inv s) : Inv s' := by
  obtain ⟨hvol, hmode, -⟩ := h
  have hfile : SameFile s s' := ⟨hmode, congrArg _ hvol, congrArg _ hvol⟩
  refine ⟨hfile.sized hs.sized, fun hm hlast => ?_⟩
  rw [hvol] at hlast ⊢
  exact hs.own (hfile.mounted.mp hm) hlast

/-- Requests for the directory do no harm if that is not the open file. -/
theorem Roams.inv {s s' : State} (h : Roams s s') (hs : Inv s)
    (hdir : s.mounted → s.volume.dirCluster ≠ s.volume.fileCluster) : Inv s' := by
  obtain ⟨hgeo, himage, hfile, -, -, -, hrecord⟩ := h.volume
  refine ⟨h.sameFile.sized hs.sized, fun hm hlast => ?_⟩
  have hm' := h.sameFile.mounted.mp hm
  rcases hrecord with ⟨hsame, hblk⟩ | hmoved
  · obtain ⟨hheld, hchain⟩ := hs.own hm' (by rw [← hsame, hlast, hfile])
    constructor
    · rw [himage, hblk]
      exact hheld
    · rw [hgeo, himage, hfile, hblk]
      exact hchain
  · exact absurd (by rw [← hmoved, hlast, hfile]) (hdir hm')

/-- After the block has been asked for it is in the buffer. -/
def Requested (s : State) : Prop :=
  s.mounted → s.volume.lastCluster = s.volume.fileCluster ∧ OwnBlock s.volume
    ∧ Sound s.volume.toGeometry s.volume.card.image s.volume.fileCluster

theorem Requested.inv {s : State} (h : Requested s) (hg : Sized s) : Inv s :=
  ⟨hg, fun hm _ => (h hm).2.1⟩

theorem fetchCluster_image {fuel : Nat} {c : Word} {o : ULong} {v v' : Volume} {r : Int}
    (h : Fat.fetchCluster fuel c o v = some (r, v')) : v'.card.image = v.card.image := by
  by_cases hhit : v.hit c o
  · rw [Fat.fetchCluster_hit hhit] at h
    cases h
    rfl
  · obtain ⟨card, hmoved, rfl⟩ := Fat.fetchCluster_moves hhit h
    exact hmoved.image

theorem diskRead_open {fuel : Nat} {s : State} {blk : ULong} {v : Volume} {r : Int}
    (hmode : s.sdFat ≠ 0)
    (hread : Fat.fatRead fuel { s.volume with fileOffset := s.volume.sought blk } = some (r, v)) :
    diskRead fuel blk s = some ((), { s with volume := v }) := by
  have hseek := Prog.discard_eq_some (u := ()).mpr
    ⟨_, onVolume_of_run (Fat.fatSeek_run blk s.volume)⟩
  rw [diskRead, Prog.get_bind_run, Prog.ite_run, if_neg hmode, Prog.bind_of_run hseek]
  exact Prog.discard_eq_some.mpr ⟨r, onVolume_of_run hread⟩

theorem storeOk_loaded {card : Card} {blk : ULong} (hfp : card.fp = some true)
    (hfaults : card.faults = []) (h : card.image.Holds blk) : StoreOk (card.loaded blk) blk :=
  .of_none hfp h.aligned h.seeks (fault_of_quiet (tail_of_quiet hfaults))

/-- What a write that succeeds puts on the card. -/
theorem write_bytes {fuel : Nat} {s t : State} (hdrive : s.drive = 0 ∨ s.drive = 8)
    (hwp : s.wrPrt = 0) (hread : diskRead fuel s.blk s = some ((), t))
    (hstore : StoreOk t.card t.card.curBlk) : ∃ s', out fuel 13 1 s = some ((), s')
      ∧ s'.diskErr = 0 ∧ ∀ i < 128, s'.card.image.byte (t.card.curBlk.toNat + (s.off.toNat + i))
        = t.sram (s.dma + BitVec.ofNat 16 i) := by
  have hoff := off_le s
  have hcommand := command_run hdrive hread 1
  rw [if_neg (by decide), if_pos ⟨rfl, hwp⟩, send_ok (hoff.trans (by decide)) _ hstore] at hcommand
  refine ⟨_, hcommand, rfl, fun i hi => ?_⟩
  have hbyte (buffer : Nat → Byte) : (fwriteImage t.card.image
      (splice buffer (fun i => t.sram (s.dma + BitVec.ofNat 16 i)) s.off.toNat 128)
      t.card.curBlk).byte (t.card.curBlk.toNat + (s.off.toNat + i))
      = t.sram (s.dma + BitVec.ofNat 16 i) := by
    rw [fwriteImage_add (by omega), splice_add hi]
  exact hbyte _

/-! ## Mounting and changing directory -/

/-- `fat_init` leaves the record and the open file alone. -/
structure Rebooted (v v' : Volume) : Prop where
  record : v'.lastCluster = v.lastCluster
  file : v'.fileCluster = v.fileCluster
  dirSector : v.dirSector.toNat < 2 ^ 33 → v'.dirSector.toNat < 2 ^ 33
  clusters : v'.toGeometry.dirEntries = v.toGeometry.dirEntries
    ∧ v'.sectorsPerCluster = v.sectorsPerCluster ∨ v'.sectorsPerCluster ≠ 0

instance : Std.Refl Rebooted := ⟨fun _ => ⟨rfl, rfl, id, .inl ⟨rfl, rfl⟩⟩⟩

instance : IsTrans Volume Rebooted where
  trans _ _ _ h h' := by
    refine ⟨h'.record.trans h.record, h'.file.trans h.file, h'.dirSector ∘ h.dirSector, ?_⟩
    rcases h'.clusters with ⟨hentries', hspc'⟩ | hspc'
    · rcases h.clusters with ⟨hentries, hspc⟩ | hspc
      · exact .inl ⟨hentries'.trans hentries, hspc'.trans hspc⟩
      · exact .inr (hspc' ▸ hspc)
    · exact .inr hspc'

theorem onCard_rebooted {α : Type} (x : CardM α) : Prog.Keeps Rebooted (Fat.onCard x) := by
  rintro v a v' h
  cases h
  exact ⟨rfl, rfl, id, .inl ⟨rfl, rfl⟩⟩

theorem fatInit_rebooted : Prog.Keeps Rebooted fatInit := by
  refine Fat.fatInit_keeps (fun _ => onCard_rebooted _)
    (fun v first _ => ⟨rfl, rfl, id, .inl ⟨rfl, rfl⟩⟩)
    (fun v first reserved fatSectors entries size spc fats hfirst hspc =>
      ⟨rfl, rfl, fun _ => ?_, .inr hspc⟩) fun v _ _ => ⟨rfl, rfl, id, .inl ⟨rfl, rfl⟩⟩
  have hreserved := reserved.isLt
  have htables : fatSectors.toNat * fats.toNat < 2 ^ 16 * 2 ^ 8 :=
    Nat.mul_lt_mul'' fatSectors.isLt fats.isLt
  rw [BitVec.toNat_add, BitVec.toNat_add, BitVec.toNat_mul,
    BitVec.toNat_setWidth_of_le (by decide), BitVec.toNat_setWidth_of_le (by decide),
    BitVec.toNat_setWidth_of_le (by decide)]
  refine (Nat.mod_le _ _).trans_lt ?_
  have hsum := Nat.mod_le (first.toNat + reserved.toNat) (2 ^ 64)
  have hprod := Nat.mod_le (fatSectors.toNat * fats.toNat) (2 ^ 64)
  omega

theorem cd_sized {fuel : Nat} {arg : Option (List Byte)} {s s' : State} (hs : Sized s)
    (hrun : cd fuel arg s = some ((), s')) : Sized s' := by
  cases arg with
  | none =>
      obtain ⟨r, hinit⟩ := Prog.discard_eq_some.mp hrun
      obtain ⟨v, hv, rfl⟩ := onVolume_eq_some.mp hinit
      obtain ⟨-, hfile, hdir, hclusters⟩ := fatInit_rebooted _ _ _ hv
      have hm' (hm : ({ s with volume := v } : State).mounted) : s.mounted :=
        ⟨hm.1, hfile ▸ hm.2⟩
      refine ⟨hdir hs.dirSector, fun hor => ?_⟩
      rcases hclusters with ⟨hentries, hspc⟩ | hspc
      · show v.sectorsPerCluster ≠ 0
        rw [hspc]
        exact hs.clusters (hor.imp (fun h => hentries ▸ h) hm')
      · exact hspc
  | some arg =>
      obtain ⟨w, hroams, hend⟩ := cd_roams hrun
      have hw := hroams.sameFile.sized hs
      rcases hend with rfl | ⟨cluster, offset, rfl⟩
      · exact hw
      · exact ⟨hw.dirSector, hw.clusters⟩

/-- `mount` does not change the geometry. -/
def SameGeometry (s s' : State) : Prop := s'.volume.toGeometry = s.volume.toGeometry

instance : IsPreorder State SameGeometry where
  refl _ := rfl
  trans _ _ _ h h' := h'.trans h

instance : MayPrint SameGeometry := ⟨fun _ _ => rfl⟩

instance : MayMount SameGeometry := ⟨fun _ _ => rfl⟩

instance : MayNote SameGeometry := ⟨fun _ _ => rfl⟩

theorem ofVolume_sameGeometry {v v' : Volume} (h : v'.toGeometry = v.toGeometry) :
    OfVolume SameGeometry v v' := by
  rintro s rfl
  exact h

instance : Fat.MayRead (OfVolume SameGeometry) where
  fetch _ _ := ofVolume_sameGeometry rfl
  record _ _ _ := ofVolume_sameGeometry rfl
  seek _ _ := ofVolume_sameGeometry rfl

instance : Fat.MayBrowse (OfVolume SameGeometry) := .of_read fun _ _ => ofVolume_sameGeometry rfl

instance : Fat.MayOpen (OfVolume SameGeometry) where
  cluster _ _ := ofVolume_sameGeometry rfl
  size _ _ := ofVolume_sameGeometry rfl

theorem mount_sized {fuel : Nat} {name : List Byte} {s s' : State} (hs : Sized s)
    (hrun : mount fuel name s = some ((), s')) : Sized s' := by
  have hgeo : SameGeometry s s' := mount_keeps fuel name s () s' hrun
  have hsector : s'.volume.dirSector.toNat < 2 ^ 33 := by
    rw [hgeo]
    exact hs.dirSector
  have hclusters (h : s'.volume.dirEntries ≠ 0) : s'.volume.sectorsPerCluster ≠ 0 := by
    rw [hgeo] at h ⊢
    exact hs.clusters (.inl h)
  rcases mount_opens hrun with hraw | ⟨-, hopened⟩
  · exact ⟨hsector, fun h => hclusters (h.resolve_right fun hm => hm.1 hraw)⟩
  · exact ⟨hsector, fun _ => hclusters hopened.entries⟩

/-- What mounts no file and goes to no other directory leaves the file and
the directory as they are. -/
theorem event_sameFile {fuel : Nat} {e : Event} (hmount : ∀ name, e ≠ .mount name)
    (hcd : ∀ arg, e ≠ .cd arg) : Prog.Keeps SameFile (e.run fuel) := by
  cases e with
  | mount name => exact absurd rfl (hmount name)
  | cd arg => exact absurd rfl (hcd arg)
  | ls => exact ls_keeps fuel
  | boot => exact boot_keeps fuel
  | out port val => exact out_keeps fuel port val
  | input port => exact .discard (input_keeps port)
  | poke addr data => exact (sramWrite_returns addr data).keeps

theorem event_sized {fuel : Nat} {e : Event} {s s' : State} (hs : Sized s)
    (hrun : e.run fuel s = some ((), s')) : Sized s' := by
  by_cases hmount : ∃ name, e = .mount name
  · obtain ⟨name, rfl⟩ := hmount
    exact mount_sized hs hrun
  by_cases hcd : ∃ arg, e = .cd arg
  · obtain ⟨arg, rfl⟩ := hcd
    exact cd_sized hs hrun
  · exact (event_sameFile (not_exists.mp hmount) (not_exists.mp hcd) s () s' hrun).sized hs

/-- A `mount` of the run has opened the file, and a regular one. -/
def MountedBy (fuel : Nat) (es : List Event) (s₀ s : State) : Prop :=
  ∃ es₁ name es₂ s₁, es = es₁ ++ .mount name :: es₂
    ∧ Prog.runAll (Event.run fuel) (es₁ ++ [.mount name]) s₀ = some ((), s₁)
    ∧ s₁.sdFat ≠ 0 ∧ Opened s₁.volume name ∧ RegularFile s₁.volume
    ∧ s₁.volume.fileCluster = s.volume.fileCluster

theorem MountedBy.cons {fuel : Nat} {e : Event} {es : List Event} {s₀ t s : State}
    (he : e.run fuel s₀ = some ((), t)) (h : MountedBy fuel es t s) :
    MountedBy fuel (e :: es) s₀ s := by
  obtain ⟨es₁, name, es₂, s₁, rfl, hrun, hend⟩ := h
  refine ⟨e :: es₁, name, es₂, s₁, rfl, ?_, hend⟩
  rw [List.cons_append, Prog.runAll, Prog.bind_of_run he]
  exact hrun

/-- After `fat_init`, whatever it has found. -/
theorem inv_initial {card : Card} {s₀ : State} {r : Int}
    (hinit : fatInit (Volume.initial card) = some (r, s₀.volume)) :
    Inv s₀ ∧ ¬s₀.mounted := by
  obtain ⟨-, hfile, hsector, hclusters⟩ := fatInit_rebooted _ _ _ hinit
  have hno : ¬s₀.mounted := fun hm => hm.2 hfile
  have hzero : (0 : ULong).toNat < 2 ^ 33 := by decide
  refine ⟨⟨⟨hsector hzero, fun h => ?_⟩, fun hm => absurd hm hno⟩, hno⟩
  rcases hclusters with ⟨hentries, -⟩ | hspc
  · exact absurd hentries (h.resolve_right hno)
  · exact hspc

/-- The volume of `blankImage` with a file `A` of one cluster. -/
def fileImage : Image where
  len := blankImage.len
  byte := fun i => match i with
    | 1536 => 0x41
    | 1547 => 0x20
    | 1562 => 2
    | 1565 => 2
    | i => if 1536 < i ∧ i < 1547 then 0x20 else blankImage.byte i

/-- What `fat_init` makes of either image. -/
def smallVolume (image : Image) (faults : List Fault) : Volume :=
  { Volume.initial (({ blankCard faults with image := image }.loaded 0).loaded 512) with
    sectorsPerCluster := 1
    fatFirstSect := 1
    reservedSectors := 1
    dirSector := 3
    dirEntries := 16
    dirSize := 1
    dirOffset := 0xffff }

/-- The machine once `machine_boot` has found the volume. -/
def booted (v : Volume) : State := { State.initial v.card with volume := v, sdFat := 1 }

/-- `fat_next` has found the file. -/
def fileFound : Volume :=
  { smallVolume fileImage [] with
    card := (smallVolume fileImage []).card.loaded 1536
    dirOffset := 0
    lastCluster := 0 }

theorem fileVolume_next : fatNext 1 (smallVolume fileImage []) = some (0, fileFound) := rfl

theorem fileFound_entry : strdcmp (ascii "A") fileFound.entryName 0 = 0
    ∧ fileFound.entryAttr &&& 0x10#8 = 0 ∧ fileFound.entryCluster = 2
    ∧ fileFound.entrySize = 512 := by
  decide +kernel

theorem fileVolume_init : fatInit (Volume.initial { blankCard [] with image := fileImage })
    = some (4, smallVolume fileImage []) := rfl

theorem unread_next : fatNext 1 (smallVolume blankImage [.none, .none, .seek])
    = some (-2, { smallVolume blankImage [] with
      dirOffset := 0
      lastCluster := 0 }) := rfl

theorem unread_init : fatInit (Volume.initial (blankCard [.none, .none, .seek]))
    = some (4, smallVolume blankImage [.none, .none, .seek]) := rfl

theorem unread_mount : ∃ console, mount 1 (ascii "X")
    (booted (smallVolume blankImage [.none, .none, .seek])) = some ((), {
      booted (smallVolume blankImage []) with
      volume := { smallVolume blankImage [] with dirOffset := 0, lastCluster := 0 }
      sdFat := 0
      console := console }) := by
  obtain ⟨console, hstart⟩ := mount_run 1 (ascii "X")
    (booted (smallVolume blankImage [.none, .none, .seek]))
  obtain ⟨console', hloop⟩ := mountLoop_missing 16 (ascii "X")
    (s := { booted (smallVolume blankImage [.none, .none, .seek]) with console := console })
    unread_next (by decide)
  exact ⟨console', hstart.trans hloop⟩

/-- Sector 1 of track 0 is addressed, and 5Ah to be written first. -/
def State.atFirst (s : State) : State :=
  { s with sram := Function.update (fun _ => 0) 0 0x5a, sect := 1 }

theorem atFirst_dma {s : State} (hlo : s.dmaLo = 0) (hhi : s.dmaHi = 0) : s.atFirst.dma = 0 := by
  show word s.dmaHi s.dmaLo = 0
  rw [hlo, hhi]
  rfl

theorem atFirst_blk {s : State} (hdrive : s.drive = 0) (htrack : s.track = 0) :
    s.atFirst.blk = 0 ∧ s.atFirst.off = 0 := by
  have hpos : s.atFirst.pos = 0 := by
    have hsect : s.atFirst.sect = 1 := rfl
    have hdrive' : s.atFirst.drive = 0 := hdrive
    have htrack' : s.atFirst.track = 0 := htrack
    rw [State.pos, hsect, hdrive', htrack']
    decide
  rw [State.blk, State.off, hpos]
  exact ⟨rfl, rfl⟩

/-- After a `mount` that failed the guest can write any block, such as the
first one. -/
theorem raw_after_mount : ∃ s₀ s s',
    fatInit (Volume.initial (blankCard [.none, .none, .seek])) = some (4, s₀.volume)
      ∧ s₀.sdFat = 1
      ∧ Prog.runAll (Event.run 1) [.mount (ascii "X"), .poke 0 0x5a, .out 12 1] s₀ = some ((), s)
      ∧ s.sdFat = 0 ∧ out 1 13 1 s = some ((), s')
      ∧ s.card.image.byte 0 = 0 ∧ s'.card.image.byte 0 = 0x5a := by
  obtain ⟨console, hmount⟩ := unread_mount
  generalize ht : ({ booted (smallVolume blankImage []) with
    volume := { smallVolume blankImage [] with dirOffset := 0, lastCluster := 0 }
    sdFat := 0
    console := console } : State) = t at hmount
  have hrun : Prog.runAll (Event.run 1) [.mount (ascii "X"), .poke 0 0x5a, .out 12 1]
      (booted (smallVolume blankImage [.none, .none, .seek])) = some ((), t.atFirst) := by
    have hmount' : Event.run 1 (.mount (ascii "X"))
      (booted (smallVolume blankImage [.none, .none, .seek])) = some ((), t) := hmount
    rw [Prog.runAll, Prog.bind_of_run hmount']
    subst ht
    rfl
  obtain ⟨hblk, hoff⟩ := atFirst_blk (s := t) (ht ▸ rfl) (ht ▸ rfl)
  have hread : diskRead 1 t.atFirst.blk t.atFirst
      = some ((), t.atFirst.withCard (t.card.loaded 0)) := by
    subst ht
    rw [diskRead_raw rfl, hblk]
    rfl
  have hstore : StoreOk (t.card.loaded 0) 0 := by
    subst ht
    exact storeOk_loaded rfl rfl ⟨by decide, by decide, (by decide : 0 + 512 ≤ 8 * 512)⟩
  obtain ⟨s', hwrite, -, hbytes⟩ :=
    write_bytes (s := t.atFirst) (ht ▸ .inl rfl) (ht ▸ rfl) hread hstore
  have hbyte := hbytes 0 (by decide)
  have hdma : t.atFirst.dma = 0 := atFirst_dma (ht ▸ rfl) (ht ▸ rfl)
  rw [hoff, hdma] at hbyte
  exact ⟨_, t.atFirst, s', unread_init, rfl, hrun, ht ▸ rfl, hwrite, ht ▸ rfl, hbyte⟩

/-- The file is open. -/
def fileOpen : Volume := { fileFound with fileCluster := 2, fileSize := 512 }

theorem file_mount : ∃ console, mount 1 (ascii "A") (booted (smallVolume fileImage []))
    = some ((), { booted (smallVolume fileImage []) with
      volume := fileOpen
      console := console
      eeprom := noted (ascii "A") (booted (smallVolume fileImage [])).eeprom }) := by
  obtain ⟨hname, -, hcluster, hsize⟩ := fileFound_entry
  obtain ⟨console, hstart⟩ := mount_run 1 (ascii "A") (booted (smallVolume fileImage []))
  obtain ⟨console', hloop⟩ := mountLoop_found 16 (ascii "A")
    (s := { booted (smallVolume fileImage []) with console := console })
    fileVolume_next (by decide) hname
  have hopening : fileFound.opening = fileOpen := by
    rw [Volume.opening, hcluster, hsize]
    rfl
  have hsought : fileOpen.sought 0 = 0 := rfl
  rw [hopening, hsought] at hloop
  exact ⟨console', hstart.trans hloop⟩

theorem fileOpen_read : Fat.fatRead 1 fileOpen
    = some (0, { fileOpen with card := fileOpen.card.loaded 2048, lastCluster := 2 }) := rfl

end Machine

end CpMega88
