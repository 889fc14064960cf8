import CpMega88.BootVolume
import CpMega88.FatChain

/-!
# Where the data begin

The FAT16 format puts the data area right behind the root directory,
counted in sectors. `fat_init` counts the root directory in clusters and
rounds up; `data_area_iff` says that `fetch_cluster` then asks for the
sector that the format defines exactly if a whole number of clusters is
as large as the root directory.

What `fat_init` makes of the boot sector is read off a run that has
succeeded (`geometry_of_success`), and which block a request asks for does
not depend on whether the card has it (`Fetches`).
-/

namespace CpMega88

open Bytes Sdcard

namespace Fat

/-! ## A `fat_init` that succeeds -/

instance (f : Nat → Byte) : Decidable (Signed f) := inferInstanceAs (Decidable (_ ∧ _))

theorem signature_eq {v : Volume} {f : Nat → Byte} (h : ∀ i < 512, v.card.buffer i = f i) :
    signature v = some (decide (Signed f), v) := by
  rw [signature, Prog.bind_of_run (read_run h 510 rfl (by decide)),
    Prog.bind_of_run (read_run h 511 rfl (by decide))]
  rfl

/-- A test that things go on after has come out right. -/
theorem of_go {c : Prop} [Decidable c] {v v' : Volume} {e r : Int} {k : FatM Int} (he : e < 0)
    (hr : 0 ≤ r) (h : (if c then pure e else k : FatM Int) v = some (r, v')) :
    ¬c ∧ k v = some (r, v') := by
  rw [Prog.ite_run] at h
  split at h
  case isTrue hc =>
    cases h
    exact absurd hr (not_le.mpr he)
  case isFalse hc => exact ⟨hc, h⟩

theorem fetchOk_of_go {v v' : Volume} {blk : ULong} {e r : Int} {k : FatM Int} (he : e < 0)
    (hr : 0 ≤ r)
    (h : (onCard (Sdcard.fetch blk) >>= fun rc => if rc < 0 then pure e else k) v = some (r, v')) :
    FetchOk v.card blk ∧ k (v.withCard (v.card.loaded blk)) = some (r, v') := by
  rw [onCard_bind_run] at h
  obtain ⟨hrc, hrest⟩ := of_go he hr h
  have hok := fetchOk_of_not_neg hrc
  rw [fetch_ok hok] at hrest
  exact ⟨hok, hrest⟩

theorem signed_of_go {v v' : Volume} {f : Nat → Byte} {e r : Int} {k : FatM Int} (he : e < 0)
    (hr : 0 ≤ r) (hbuf : ∀ i < 512, v.card.buffer i = f i)
    (h : (signature >>= fun ok => if (!ok) = true then pure e else k) v = some (r, v')) :
    Signed f ∧ k v = some (r, v') := by
  rw [Prog.bind_of_run (signature_eq hbuf)] at h
  obtain ⟨hsigned, hrest⟩ := of_go he hr h
  exact ⟨by simpa using hsigned, hrest⟩

/-- What a `fat_init` that succeeds has made of the boot sector, if the
partition is of one of the two types. -/
theorem geometry_of_success {v v' : Volume} {r : Int} (h : fatInit v = some (r, v')) (hr : 0 ≤ r)
    (hkind : v.card.image.block 0 450 = 4 ∨ v.card.image.block 0 450 = 6) :
    v'.toGeometry = geometry v.card.image ∧ bootSector v.card.image 13 ≠ 0 := by
  obtain ⟨-, h⟩ := fetchOk_of_go (by decide) hr h
  have hfirst : ∀ i < 512, (v.withCard (v.card.loaded 0)).card.buffer i = v.card.image.block 0 i :=
    fun i hi => loaded_buffer _ _ hi
  have hdesc : ¬((v.card.image.block 0 450).toInt ≠ 4 ∧ (v.card.image.block 0 450).toInt ≠ 6) := by
    rcases hkind with h4 | h6
    · rw [h4]
      decide
    · rw [h6]
      decide
  rw [Prog.bind_of_run (read_run hfirst 450 rfl (by decide))] at h
  obtain ⟨-, h⟩ := signed_of_go (by decide) hr hfirst h
  rw [Prog.ite_run, if_neg hdesc, Prog.bind_of_run (read4_run hfirst 454 rfl (by decide)),
    Prog.modify_bind_run] at h
  obtain ⟨-, h⟩ := fetchOk_of_go (by decide) hr h
  have hsecond : ∀ i < 512, ((v.card.loaded 0).loaded (bootAddr v.card.image)).buffer i
      = bootSector v.card.image i := fun i hi => loaded_buffer _ _ hi
  generalize hw : Volume.withCard _ _ = w at h
  have hbuf : ∀ i < 512, w.card.buffer i = bootSector v.card.image i := by
    subst hw
    exact hsecond
  obtain ⟨-, h⟩ := signed_of_go (by decide) hr hbuf h
  rw [Prog.bind_of_run (read2_run hbuf 11 rfl (by decide)),
    Prog.bind_of_run (read_run hbuf 16 rfl (by decide)),
    Prog.bind_of_run (read2_run hbuf 22 rfl (by decide)),
    Prog.bind_of_run (read2_run hbuf 14 rfl (by decide)),
    Prog.bind_of_run (read_run hbuf 13 rfl (by decide)),
    Prog.bind_of_run (read2_run hbuf 17 rfl (by decide)), Prog.ite_run] at h
  split at h
  case isTrue => cases (Prog.failure_run w).symm.trans h
  case isFalse hspc =>
    rw [Prog.modify_bind_run] at h
    obtain ⟨-, h⟩ := of_go (by decide) hr h
    cases h
    subst hw
    exact ⟨rfl, hspc⟩

/-! ## The boot sector -/

/-- The first entry of the partition table leads to a FAT16 volume with
this boot sector. -/
structure Layout.On (l : Layout) (image : Image) : Prop where
  kind : image.block 0 450 = 4 ∨ image.block 0 450 = 6
  firstSect : bytes4 (image.block 0) 454 = l.firstSect.setWidth 64
  perCluster : bootSector image 13 = l.perCluster
  reserved : bytes2 (bootSector image) 14 = l.reserved
  fats : bootSector image 16 = l.fats
  rootEntries : bytes2 (bootSector image) 17 = l.rootEntries
  fatSectors : bytes2 (bootSector image) 22 = l.fatSectors

theorem Layout.On.geometry {l : Layout} {image : Image} (h : l.On image) :
    Fat.geometry image = l.geometry := by
  rw [Fat.geometry, h.firstSect, h.perCluster, h.reserved, h.fats, h.rootEntries, h.fatSectors]
  rfl

/-- The sector of the volume that the format gives to a sector of a
cluster. -/
def Layout.formatSector (l : Layout) (c : Word) (sector : Nat) : Nat :=
  l.firstSect.toNat + l.reserved.toNat + l.fats.toNat * l.fatSectors.toNat
    + l.rootEntries.toNat / 16 + (c.toNat - 2) * l.perCluster.toNat + sector

/-! ## The sector asked for -/

/-- A request that the record does not answer fetches the sector, at once
and nothing else. -/
def Fetches (g : Geometry) (c : Word) (o : ULong) (sector : Nat) : Prop :=
  ∀ (v : Volume) (fuel : Nat), v.toGeometry = g → ¬v.hit c o →
    fetchCluster (fuel + 1) c o v
      = onCard (Sdcard.fetch (BitVec.ofNat 64 (sector * 512))) (v.recorded c o)

/-- An offset in the first cluster is not looked for in the FAT. -/
theorem fetches_first {g : Geometry} {c : Word} {o : ULong} (hc : c ≠ 0)
    (ho : ¬g.clusterBytes < o) {v : Volume} (fuel : Nat) (hg : v.toGeometry = g)
    (hmiss : ¬v.hit c o) : fetchCluster (fuel + 1) c o v
      = onCard (Sdcard.fetch (g.dataSector c o <<< 9)) (v.recorded c o) := by
  subst hg
  have hwalk : walk (fuel + 1) c o (v.recorded c o) = some (.ok (c, o), v.recorded c o) := by
    have ho' : ¬(v.recorded c o).clusterBytes < o := ho
    rw [walk_run, if_neg ho']
  rw [fetchCluster_data hmiss hc, Prog.bind_of_run hwalk]

/-- A volume with a given geometry on a card large enough for any block
that can be addressed, with nothing on record. -/
def vast (g : Geometry) : Volume :=
  { Volume.initial ⟨⟨2 ^ 64, fun _ => 0⟩, some true, fun _ => 0, 0, some true, []⟩ with
    toGeometry := g }

theorem vast_fetch {g : Geometry} {blk : ULong} (haligned : blk.toNat % 512 = 0)
    (hnear : blk.toNat < 2 ^ 63) : (Sdcard.fetch blk (vast g).card).2.curBlk = blk := by
  have hholds : (vast g).card.image.Holds blk :=
    ⟨(aligned_iff blk).mpr haligned, hnear, (by omega : blk.toNat + 512 ≤ 2 ^ 64)⟩
  rw [fetch_ok (hholds.fetchOk (Option.some_ne_none true) rfl)]
  rfl

/-- On that card it shows which sector is asked for. -/
theorem Fetches.unique {g : Geometry} {c : Word} {o : ULong} {a b : Nat} (hc : c ≠ 0xffff)
    (h : Fetches g c o a) (h' : Fetches g c o b) (ha : a * 512 < 2 ^ 63) (hb : b * 512 < 2 ^ 63) :
    a = b := by
  have hempty : (vast g).lastCluster = 0xffff := rfl
  have hmiss : ¬(vast g).hit c o := by
    rintro ⟨hlast, -⟩
    exact hc (hlast.trans hempty)
  have hnat {n : Nat} (hn : n * 512 < 2 ^ 63) : (BitVec.ofNat 64 (n * 512)).toNat = n * 512 :=
    (BitVec.toNat_ofNat _ _).trans (Nat.mod_eq_of_lt (hn.trans (by decide)))
  have hsame := (h (vast g) 0 rfl hmiss).symm.trans (h' (vast g) 0 rfl hmiss)
  have hcard : (Sdcard.fetch (BitVec.ofNat 64 (a * 512)) (vast g).card).2.curBlk
      = (Sdcard.fetch (BitVec.ofNat 64 (b * 512)) (vast g).card).2.curBlk :=
    congrArg (fun r => r.2.card.curBlk) (Option.some.inj hsame)
  rw [vast_fetch (by rw [hnat ha]; omega) (by rw [hnat ha]; exact ha),
    vast_fetch (by rw [hnat hb]; omega) (by rw [hnat hb]; exact hb), ← BitVec.toNat_inj, hnat ha,
    hnat hb] at hcard
  omega

/-! ## The data area -/

/-- Rounding up changes nothing if there is nothing to round. -/
theorem roundUp_eq_iff {n k : Nat} (hk : 0 < k) : (n + k - 1) / k * k = n ↔ k ∣ n := by
  constructor
  · intro h
    exact ⟨_, (Nat.mul_comm .. ▸ h).symm⟩
  · rintro ⟨m, rfl⟩
    have hdiv : (k * m + k - 1) / k = m := by
      rw [Nat.add_sub_assoc hk, Nat.mul_add_div hk, Nat.div_eq_of_lt (Nat.sub_one_lt hk.ne'),
        Nat.add_zero]
    rw [hdiv, Nat.mul_comm]

theorem rootClusters_eq (l : Layout) :
    l.rootClusters = (l.rootEntries.toNat / 16 + l.perCluster.toNat - 1) / l.perCluster.toNat := by
  rw [Layout.rootClusters, BitVec.toNat_ushiftRight, Nat.shiftRight_eq_div_pow]

/-- What the code asks for. -/
theorem fetches_code (l : Layout) {c : Word} (hc : IsLink c) {o : ULong}
    (ho : o.toNat < l.clusterBytes) :
    Fetches l.geometry c o (l.dataStart + (c.toNat - 2) * l.perCluster.toNat + o.toNat / 512)
      ∧ (l.dataStart + (c.toNat - 2) * l.perCluster.toNat + o.toNat / 512) * 512 < 2 ^ 62 := by
  obtain ⟨haddr, hlt⟩ := l.toNat_dataSector hc.1 ho.le
  refine ⟨fun v fuel hg hmiss => ?_, hlt⟩
  have hblk : BitVec.ofNat 64 (l.sectorAddr c (o.toNat / 512))
      = l.geometry.dataSector c o <<< 9 := by
    rw [← haddr, BitVec.ofNat_toNat, BitVec.setWidth_eq]
  have hne : c ≠ 0 := by
    rintro rfl
    exact absurd hc (by decide)
  have hfirst : ¬l.geometry.clusterBytes < o := by
    rw [BitVec.lt_def, l.toNat_clusterBytes]
    omega
  rw [fetches_first hne hfirst fuel hg hmiss, ← hblk]
  rfl

theorem formatSector_lt (l : Layout) {c : Word} {o : ULong} (ho : o.toNat < l.clusterBytes) :
    l.formatSector c (o.toNat / 512) * 512 < 2 ^ 63 := by
  have hfats : l.fats.toNat * l.fatSectors.toNat < 2 ^ 24 :=
    (Nat.mul_lt_mul'' l.fats.isLt l.fatSectors.isLt).trans_le (by decide)
  have hdata : (c.toNat - 2) * l.perCluster.toNat < 2 ^ 24 := by
    have hc : c.toNat - 2 < 2 ^ 16 := (Nat.sub_le _ _).trans_lt c.isLt
    exact (Nat.mul_lt_mul'' hc l.perCluster.isLt).trans_le (by decide)
  have hfirst := l.firstSect.isLt
  have hreserved := l.reserved.isLt
  have hroot := l.rootEntries.isLt
  have hspc := l.perCluster.isLt
  rw [Layout.clusterBytes] at ho
  rw [Layout.formatSector]
  omega

/-- The code and the format agree where the root directory ends. -/
theorem sectors_eq_iff (l : Layout) (c : Word) (sector : Nat) :
    l.dataStart + (c.toNat - 2) * l.perCluster.toNat + sector = l.formatSector c sector
      ↔ l.perCluster.toNat ∣ l.rootEntries.toNat / 16 := by
  rw [← roundUp_eq_iff l.perCluster_pos, ← rootClusters_eq, Layout.dataStart, Layout.rootStart,
    Layout.formatSector, Nat.mul_comm l.fatSectors.toNat]
  omega

/-- After `fat_init` has succeeded, `fetch_cluster` asks for the sector the
format defines if the root directory fills whole clusters, and only
then. -/
theorem data_area_iff {l : Layout} {v v' : Volume} {r : Int} {c : Word} {o : ULong}
    (hl : l.On v.card.image) (hinit : fatInit v = some (r, v')) (hr : 0 ≤ r) (hc : IsLink c)
    (ho : o.toNat < l.clusterBytes) :
    Fetches v'.toGeometry c o (l.formatSector c (o.toNat / 512))
      ↔ l.perCluster.toNat ∣ l.rootEntries.toNat / 16 := by
  obtain ⟨hcode, hlt⟩ := fetches_code l hc ho
  have hne : c ≠ 0xffff := by
    rintro rfl
    exact absurd hc (by decide)
  rw [(geometry_of_success hinit hr hl.kind).1, hl.geometry, ← sectors_eq_iff l c (o.toNat / 512)]
  constructor
  · intro h
    exact hcode.unique hne h (hlt.trans (by decide)) (formatSector_lt l ho)
  · intro h
    exact h ▸ hcode

/-- The volume of `blankImage`, with `k` sectors to a cluster. -/
def clusteredImage (k : Byte) : Image where
  len := blankImage.len
  byte := fun i => if i = 525 then k else blankImage.byte i

def clustered (k : Byte) (hk : 0 < k.toNat) : Layout :=
  { Layout.small with perCluster := k, perCluster_pos := hk }

theorem clustered_table (k : Byte) {i : Nat} (hi : i < 512) :
    (clusteredImage k).block 0 i = blankImage.byte i := by
  have hzero : (0 : ULong).toNat = 0 := rfl
  rw [Image.block, hzero, Nat.zero_add]
  exact if_neg (by omega)

theorem clustered_first (k : Byte) : bytes4 ((clusteredImage k).block 0) 454 = 1 := by
  rw [bytes4, bytes2, bytes2, clustered_table k (by decide), clustered_table k (by decide),
    clustered_table k (by decide), clustered_table k (by decide)]
  decide +kernel

theorem clustered_boot (k : Byte) (i : Nat) :
    bootSector (clusteredImage k) i = if i = 13 then k else blankImage.byte (512 + i) := by
  have haddr : (bootAddr (clusteredImage k)).toNat = 512 := by
    rw [bootAddr, clustered_first]
    rfl
  rw [bootSector, Image.block, haddr, clusteredImage]
  by_cases h : i = 13
  · rw [if_pos h]
    exact if_pos (by omega)
  · rw [if_neg h]
    exact if_neg (by omega)

theorem clustered_word (k : Byte) {i : Nat} (hi : i ≠ 13) (hi' : i + 1 ≠ 13) :
    bytes2 (bootSector (clusteredImage k)) i = bytes2 blankImage.byte (512 + i) := by
  rw [bytes2, clustered_boot, clustered_boot, if_neg hi, if_neg hi']
  rfl

theorem clustered_on (k : Byte) (hk : 0 < k.toNat) : (clustered k hk).On (clusteredImage k) where
  kind := .inl (clustered_table k (by decide))
  firstSect := clustered_first k
  perCluster := clustered_boot k 13
  reserved := clustered_word k (by decide) (by decide)
  fats := clustered_boot k 16
  rootEntries := clustered_word k (by decide) (by decide)
  fatSectors := clustered_word k (by decide) (by decide)

theorem clustered_fat16 (k : Byte) (hk : k ≠ 0) : Fat16 (clusteredImage k) where
  table := ⟨by decide, by decide, (by decide : 0 + 512 ≤ 8 * 512)⟩
  tableSigned := ⟨clustered_table k (by decide), clustered_table k (by decide)⟩
  kind := .inl (clustered_table k (by decide))
  boot := by
    rw [bootAddr, clustered_first]
    exact ⟨by decide, by decide, (by decide : 512 + 512 ≤ 8 * 512)⟩
  bootSigned := ⟨clustered_boot k 510, clustered_boot k 511⟩
  sectorBytes := clustered_word k (by decide) (by decide)
  perCluster := by
    rw [clustered_boot]
    exact hk

/-- The volume before `fat_init`. -/
def unread (k : Byte) : Volume := Volume.initial { blankCard [] with image := clusteredImage k }

theorem unread_run (k : Byte) (hk : k ≠ 0) : fatInit (unread k) = some (4, (unread k).inited) :=
  fatInit_run (clustered_fat16 k hk) (Option.some_ne_none true) rfl

/-- One sector of root directory is a whole cluster, and the data begin
behind it. -/
theorem data_area_small : Fetches (unread 1).inited.toGeometry 2 0
    ((clustered 1 (by decide)).formatSector 2 0) :=
  (data_area_iff (clustered_on 1 (by decide)) (unread_run 1 (by decide)) (by decide) (by decide)
    (by decide)).mpr (by decide)

/-- Of one sector of four the code makes four, and skips three sectors of
data. -/
theorem data_area_wide : fatInit (unread 4) = some (4, (unread 4).inited)
    ∧ (clustered 4 (by decide)).formatSector 2 0 = 4
    ∧ Fetches (unread 4).inited.toGeometry 2 0 7 ∧ ¬Fetches (unread 4).inited.toGeometry 2 0 4 := by
  have hl := clustered_on 4 (by decide)
  have hinit := unread_run 4 (by decide)
  have hgeo : (unread 4).inited.toGeometry = (clustered 4 (by decide)).geometry :=
    (geometry_of_success hinit (by decide) hl.kind).1.trans hl.geometry
  have hcode := (fetches_code (clustered 4 (by decide)) (c := 2) (by decide) (o := 0)
    (by decide)).1
  rw [← hgeo] at hcode
  have hseven : (clustered 4 (by decide)).dataStart + ((2 : Word).toNat - 2)
      * (clustered 4 (by decide)).perCluster.toNat + (0 : ULong).toNat / 512 = 7 := by decide
  rw [hseven] at hcode
  refine ⟨hinit, by decide, hcode, fun h => ?_⟩
  exact absurd (hcode.unique (by decide) h (by decide) (by decide)) (by decide)

end Fat

end CpMega88
