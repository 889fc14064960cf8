import CpMega88.FatLands

/-!
# Offsets in a cluster chain

Which sector of a file `fetch_cluster` loads for an offset, on a FAT16
volume whose boot sector (`Layout`) and FAT are given.

The loop leaves a cluster only when more than a cluster of the offset is
left, so an offset at the very beginning of a cluster is looked for
behind the last sector of the cluster before it. And the addresses of FAT
sectors are cut to 32 bits. `fetch_cluster_iff` says that the sector is
the right one on every card with such a volume if and only if neither
matters: no link that is followed lies beyond 4 GiB, and where the offset
begins a cluster, that cluster is the next one on the card.
-/

namespace CpMega88

open Bytes Sdcard

namespace Fat

/-! ## FAT16 volumes -/

/-- The boot sector of a volume with 512-byte sectors. -/
structure Layout where
  firstSect : BitVec 32
  reserved : Word
  fats : Byte
  fatSectors : Word
  rootEntries : Word
  perCluster : Byte
  perCluster_pos : 0 < perCluster.toNat

namespace Layout

variable (l : Layout)

/-- What `fat_init` makes of the boot sector. -/
def geometry : Geometry where
  sectorsPerCluster := l.perCluster
  fatFirstSect := l.firstSect.setWidth 64
  reservedSectors := l.reserved
  dirSector := l.firstSect.setWidth 64 + l.reserved.setWidth 64
    + l.fatSectors.setWidth 64 * l.fats.setWidth 64
  dirEntries := l.rootEntries
  dirSize := BitVec.ofNat 16
    (((l.rootEntries >>> 4).toNat + l.perCluster.toNat - 1) / l.perCluster.toNat)

def clusterBytes : Nat := l.perCluster.toNat * 512

/-- The first byte of the FAT. -/
def fatStart : Nat := (l.firstSect.toNat + l.reserved.toNat) * 512

/-- The first sector of the root directory. -/
def rootStart : Nat :=
  l.firstSect.toNat + l.reserved.toNat + l.fatSectors.toNat * l.fats.toNat

/-- The clusters the code takes for the root directory. -/
def rootClusters : Nat :=
  ((l.rootEntries >>> 4).toNat + l.perCluster.toNat - 1) / l.perCluster.toNat

/-- The first sector of the data area, as the code has it. -/
def dataStart : Nat := l.rootStart + l.rootClusters * l.perCluster.toNat

/-- The address of a sector of a cluster. -/
def sectorAddr (c : Word) (sector : Nat) : Nat :=
  (l.dataStart + (c.toNat - 2) * l.perCluster.toNat + sector) * 512

/-- The entries of the FAT on a card. -/
def Carries (image : Image) (fat : Word → Word) : Prop :=
  ∀ c, image.byte (l.fatStart + 2 * c.toNat) = loByte (fat c)
    ∧ image.byte (l.fatStart + 2 * c.toNat + 1) = hiByte (fat c)

theorem clusterBytes_pos : 0 < l.clusterBytes :=
  Nat.mul_pos l.perCluster_pos (by decide)

theorem toNat_clusterBytes : l.geometry.clusterBytes.toNat = l.clusterBytes := by
  have hspc := l.perCluster.isLt
  simp only [Geometry.clusterBytes, geometry, clusterBytes, BitVec.toNat_shiftLeft,
    BitVec.toNat_setWidth, Nat.shiftLeft_eq]
  omega

theorem toNat_fatPos (c : Word) : (l.geometry.fatPos c).toNat = l.fatStart + 2 * c.toNat := by
  have hfirst := l.firstSect.isLt
  have hres := l.reserved.isLt
  have hc := c.isLt
  simp only [Geometry.fatPos, geometry, fatStart, BitVec.toNat_add, BitVec.toNat_shiftLeft,
    BitVec.toNat_setWidth, Nat.shiftLeft_eq]
  omega

theorem toNat_dirSector : l.geometry.dirSector.toNat = l.rootStart ∧ l.rootStart < 2 ^ 33 := by
  have hfirst := l.firstSect.isLt
  have hres := l.reserved.isLt
  have hfats : l.fatSectors.toNat * l.fats.toNat < 2 ^ 24 :=
    (Nat.mul_lt_mul'' l.fatSectors.isLt l.fats.isLt).trans_le (by decide)
  have hprod : (l.fatSectors.setWidth 64 * l.fats.setWidth 64 : ULong).toNat
      = l.fatSectors.toNat * l.fats.toNat := by
    rw [BitVec.toNat_mul, BitVec.toNat_setWidth_of_le (by decide),
      BitVec.toNat_setWidth_of_le (by decide)]
    exact Nat.mod_eq_of_lt (hfats.trans (by decide))
  simp only [geometry, rootStart, BitVec.toNat_add, hprod, BitVec.toNat_setWidth]
  omega

theorem toNat_dirSize : l.geometry.dirSize.toNat = l.rootClusters ∧ l.rootClusters < 2 ^ 16 := by
  have hroot := l.rootEntries.isLt
  have hspc := l.perCluster.isLt
  have hlt : l.rootClusters < 2 ^ 16 := by
    refine (Nat.div_le_self _ _).trans_lt ?_
    rw [BitVec.toNat_ushiftRight, Nat.shiftRight_eq_div_pow]
    omega
  exact ⟨(BitVec.toNat_ofNat _ _).trans (Nat.mod_eq_of_lt hlt), hlt⟩

theorem toNat_dataSector {c : Word} (hc : 2 ≤ c.toNat) {o : ULong} (ho : o.toNat ≤ l.clusterBytes) :
    (l.geometry.dataSector c o <<< 9).toNat = l.sectorAddr c (o.toNat / 512)
      ∧ l.sectorAddr c (o.toNat / 512) < 2 ^ 62 := by
  obtain ⟨hdir, hdirlt⟩ := l.toNat_dirSector
  have hspc := l.perCluster.isLt
  have ho' : o.toNat < 2 ^ 17 := by
    rw [clusterBytes] at ho
    omega
  obtain ⟨hblk, hlt⟩ := Fat.toNat_dataSector l.geometry (hdir ▸ hdirlt) hc ho'
  have haddr : (l.geometry.dataSector c o <<< 9).toNat = l.sectorAddr c (o.toNat / 512) := by
    rw [hblk, hdir, l.toNat_dirSize.1, Nat.add_mul l.rootClusters, ← Nat.add_assoc l.rootStart]
    rfl
  exact ⟨haddr, haddr ▸ hlt⟩

theorem toNat_fatBlock (c : Word) : (l.geometry.fatBlock c).toNat
      = (l.fatStart + 2 * c.toNat) % 2 ^ 32 / 512 * 512 := by
  rw [Fat.toNat_fatBlock, toNat_fatPos]

theorem entry_eq (image : Image) (c : Word) : l.geometry.entry image c
      = word (image.byte ((l.fatStart + 2 * c.toNat) % 2 ^ 32 + 1))
        (image.byte ((l.fatStart + 2 * c.toNat) % 2 ^ 32)) := by
  rw [Fat.entry_eq, toNat_fatPos]

theorem entry_low {image : Image} {fat : Word → Word} (h : l.Carries image fat) {c : Word}
    (hlow : l.fatStart + 2 * c.toNat < 2 ^ 32) : l.geometry.entry image c = fat c := by
  rw [entry_eq, Nat.mod_eq_of_lt hlow, (h c).1, (h c).2, word_hiByte_loByte]

/-! ## Following the chain -/

/-- What one turn of the loop does to the offset. -/
theorem offset_step {o : ULong} (h : l.clusterBytes < o.toNat) :
    (o - l.geometry.clusterBytes).toNat = o.toNat - l.clusterBytes
      ∧ ((o - l.geometry.clusterBytes).toNat - 1) / l.clusterBytes + 1
        = (o.toNat - 1) / l.clusterBytes := by
  have hsub : (o - l.geometry.clusterBytes).toNat = o.toNat - l.clusterBytes := by
    rw [BitVec.toNat_sub_of_le (by rw [BitVec.le_def, toNat_clusterBytes]; omega),
      toNat_clusterBytes]
  refine ⟨hsub, ?_⟩
  rw [hsub, Nat.sub_right_comm, ← Nat.div_eq_sub_div l.clusterBytes_pos (by omega)]

/-- How many links the loop follows, and what is left of the offset. -/
theorem links_count {image : Image} {c c' : Word} {o o' : ULong} {n : Nat}
    (h : Links l.geometry image c o n c' o') :
    n = (o.toNat - 1) / l.clusterBytes ∧ o'.toNat + n * l.clusterBytes = o.toNat
      ∧ o'.toNat ≤ l.clusterBytes := by
  have hpos := l.clusterBytes_pos
  induction h with
  | @stop c o hstop =>
      rw [BitVec.not_lt, BitVec.le_def, toNat_clusterBytes] at hstop
      exact ⟨(Nat.div_eq_of_lt (by omega)).symm, by omega, hstop⟩
  | @link c c' o o' n hgo _ _ _ ih =>
      rw [BitVec.lt_def, toNat_clusterBytes] at hgo
      obtain ⟨hsub, hstep⟩ := l.offset_step hgo
      obtain ⟨hn, ho, hle⟩ := ih
      exact ⟨by rw [hn, hstep], by rw [Nat.succ_mul]; omega, hle⟩

theorem fatBlock_holds {image : Image} {c : Word} (hlow : l.fatStart + 2 * c.toNat < 2 ^ 32)
    (hread : (l.fatStart + 2 * c.toNat) / 512 * 512 + 512 ≤ image.len) :
    image.Holds (l.geometry.fatBlock c) where
  aligned := by
    rw [aligned_iff, toNat_fatBlock]
    exact Nat.mul_mod_left _ _
  seeks := by
    rw [toNat_fatBlock]
    omega
  inside := by rwa [toNat_fatBlock, Nat.mod_eq_of_lt hlow]

/-- The loop follows the chain as long as it reads the right entries. -/
theorem links_chain {image : Image} {fat : Word → Word} (hfat : l.Carries image fat) {n : Nat}
    {c : Word} {o : ULong} (hn : n = (o.toNat - 1) / l.clusterBytes)
    (hlow : ∀ i < n, l.fatStart + 2 * (fat^[i] c).toNat < 2 ^ 32)
    (hread : ∀ i < n, (l.fatStart + 2 * (fat^[i] c).toNat) / 512 * 512 + 512 ≤ image.len)
    (hlink : ∀ i < n, IsLink (fat^[i + 1] c)) :
    ∃ o', Links l.geometry image c o n (fat^[n] c) o' := by
  have hpos := l.clusterBytes_pos
  induction n generalizing c o with
  | zero =>
      refine ⟨o, .stop ?_⟩
      have := (Nat.div_eq_zero_iff.mp hn.symm).resolve_left hpos.ne'
      rw [BitVec.not_lt, BitVec.le_def, toNat_clusterBytes]
      omega
  | succ n ih =>
      have hgo : l.clusterBytes < o.toNat := by
        by_contra hle
        rw [Nat.div_eq_of_lt (by omega)] at hn
        exact Nat.succ_ne_zero n hn
      have hentry := l.entry_low hfat (hlow 0 n.succ_pos)
      have hstep := (l.offset_step hgo).2
      obtain ⟨o', hrest⟩ := @ih (fat c) (o - l.geometry.clusterBytes) (by omega)
        (fun i hi => hlow (i + 1) (Nat.succ_lt_succ hi))
        (fun i hi => hread (i + 1) (Nat.succ_lt_succ hi))
        (fun i hi => hlink (i + 1) (Nat.succ_lt_succ hi))
      refine ⟨o', .link ?_ (l.fatBlock_holds (hlow 0 n.succ_pos) (hread 0 n.succ_pos)) ?_ ?_⟩
      · rwa [BitVec.lt_def, toNat_clusterBytes]
      · exact hentry ▸ hlink 0 n.succ_pos
      · exact hentry ▸ hrest

end Layout

/-! ## The right sector -/

/-- `fetch_cluster` returns 0 and leaves the block at an address in the
buffer. -/
def ReadsBlock (v : Volume) (c : Word) (o : ULong) (addr : Nat) : Prop :=
  ∃ fuel v', fetchCluster fuel c o v = some (0, v') ∧ v'.card.curBlk.toNat = addr
    ∧ ∀ i < 512, v'.card.buffer i = v.card.image.byte (addr + i)

/-- The address of the sector an offset lies in, by the chain. -/
def Layout.target (l : Layout) (fat : Word → Word) (c : Word) (o : ULong) : Nat :=
  l.sectorAddr (fat^[o.toNat / l.clusterBytes] c) (o.toNat % l.clusterBytes / 512)

/-- A card with the volume, nothing on record, and no read that fails. -/
structure Serves (l : Layout) (fat : Word → Word) (c : Word) (o : ULong) (v : Volume) : Prop where
  geometry : v.toGeometry = l.geometry
  carries : l.Carries v.card.image fat
  empty : v.lastCluster = 0xffff
  opened : v.card.fp ≠ none
  quiet : v.card.faults = []
  fatRead : ∀ i < o.toNat / l.clusterBytes,
    (l.fatStart + 2 * (fat^[i] c).toNat) / 512 * 512 + 512 ≤ v.card.image.len
  dataRead : l.target fat c o + 512 ≤ v.card.image.len

theorem Serves.miss {l : Layout} {fat : Word → Word} {c : Word} {o : ULong} {v : Volume}
    (h : Serves l fat c o v) (hc : IsLink c) : ¬v.hit c o := by
  rintro ⟨hlast, -⟩
  rw [h.empty] at hlast
  subst hlast
  exact absurd hc (by decide)

/-- On such a card the code reads the block that the request lands on. -/
theorem Serves.readsBlock_iff {l : Layout} {fat : Word → Word} {c : Word} {o : ULong} {v : Volume}
    (h : Serves l fat c o v) (hc : IsLink c) (addr : Nat) :
    ReadsBlock v c o addr
      ↔ ∃ n blk, Lands l.geometry v.card.image c o n blk ∧ blk.toNat = addr := by
  have hquiet : ∀ n, Quiet v.card n := by
    intro n f hf
    rw [h.quiet, List.take_nil] at hf
    exact absurd hf List.not_mem_nil
  constructor
  · rintro ⟨fuel, v', hrun, haddr, -⟩
    obtain ⟨n, blk, hlands, ⟨card, -, hcur, -, rfl⟩, -⟩ := fetchCluster_lands (h.miss hc) hrun
    exact ⟨n, blk, h.geometry ▸ hlands, hcur ▸ haddr⟩
  · rintro ⟨n, blk, hlands, rfl⟩
    obtain ⟨v', hrun, card, -, hcur, hbuf, rfl⟩ := fetchCluster_ok (h.miss hc)
      (h.geometry.symm ▸ hlands) h.opened (hquiet (n + 1)) (Nat.lt_succ_self n)
    exact ⟨n + 1, _, hrun, congrArg BitVec.toNat hcur, hbuf⟩

/-! ## When it is right -/

theorem sectorAddr_succ_iff (l : Layout) {c c' : Word} (hc : IsLink c) (hc' : IsLink c') :
    l.sectorAddr c l.perCluster.toNat = l.sectorAddr c' 0 ↔ c' = c + 1 := by
  have hnat : c' = c + 1 ↔ c'.toNat = c.toNat + 1 := by
    have hone : (1 : Word).toNat = 1 := rfl
    rw [← BitVec.toNat_inj, BitVec.toNat_add, hone, Nat.mod_eq_of_lt (by have := hc.2; omega)]
  have hcancel : (c.toNat - 2) * l.perCluster.toNat + l.perCluster.toNat
      = (c'.toNat - 2) * l.perCluster.toNat ↔ c.toNat - 2 + 1 = c'.toNat - 2 := by
    rw [← Nat.succ_mul]
    exact Nat.mul_left_inj l.perCluster_pos.ne'
  have := hc.1
  have := hc'.1
  rw [hnat, Layout.sectorAddr, Layout.sectorAddr, Nat.mul_left_inj (by decide)]
  omega

/-- The last cluster and offset the loop comes to, against the right
ones. -/
theorem sectorAddr_iff (l : Layout) {fat : Word → Word} {c : Word} {o o' : ULong} {n : Nat}
    (hn : n = (o.toNat - 1) / l.clusterBytes) (ho : o'.toNat + n * l.clusterBytes = o.toNat)
    (hle : o'.toNat ≤ l.clusterBytes) (hlink : ∀ i ≤ o.toNat / l.clusterBytes, IsLink (fat^[i] c)) :
    l.sectorAddr (fat^[n] c) (o'.toNat / 512) = l.target fat c o
      ↔ o = 0 ∨ ¬l.clusterBytes ∣ o.toNat
        ∨ fat^[o.toNat / l.clusterBytes] c = fat^[o.toNat / l.clusterBytes - 1] c + 1 := by
  have hpos := l.clusterBytes_pos
  rcases Nat.lt_or_eq_of_le hle with hlt | hfull
  · -- the loop stopped inside the right cluster
    have hsum : o'.toNat + l.clusterBytes * n = o.toNat := by rwa [Nat.mul_comm]
    obtain ⟨hdiv, hmod⟩ := (Nat.div_mod_unique hpos).mpr ⟨hsum, hlt⟩
    rw [Layout.target, hdiv, hmod]
    refine iff_of_true rfl ?_
    by_cases hzero : o.toNat = 0
    · exact .inl (BitVec.eq_of_toNat_eq hzero)
    · refine .inr (.inl fun hdvd => ?_)
      obtain ⟨k, hk⟩ := hdvd
      have hlast : (o.toNat - 1) / l.clusterBytes < k := Nat.div_lt_of_lt_mul (by omega)
      rw [hk, Nat.mul_div_cancel_left _ hpos] at hdiv
      omega
  · -- at the end of the cluster before the right one
    have ho' : o.toNat = l.clusterBytes * (n + 1) := by
      rw [← ho, hfull, Nat.mul_succ, Nat.mul_comm, Nat.add_comm]
    have hdiv : o.toNat / l.clusterBytes = n + 1 := by
      rw [ho', Nat.mul_div_cancel_left _ hpos]
    have hne : ¬o = 0 := by
      rintro rfl
      exact absurd ho' (Nat.mul_pos hpos n.succ_pos).ne
    have hsector : o'.toNat / 512 = l.perCluster.toNat := by
      rw [hfull]
      exact Nat.mul_div_cancel _ (by decide)
    rw [Layout.target, hdiv, hsector, ho', Nat.mul_mod_right, Nat.add_sub_cancel,
      sectorAddr_succ_iff l (hlink n (by omega)) (hlink (n + 1) (by omega))]
    simp only [hne, false_or, dvd_mul_right, not_true_eq_false]

/-! ## A card that holds a FAT and nothing else -/

namespace Layout

variable (l : Layout) (fat : Word → Word)

def image : Image where
  len := 2 ^ 64
  byte := fun a =>
    if l.fatStart ≤ a ∧ a < l.fatStart + 2 ^ 17 then
      let entry := fat (BitVec.ofNat 16 ((a - l.fatStart) / 2))
      if (a - l.fatStart) % 2 = 0 then loByte entry else hiByte entry
    else 0

/-- The volume on that card, just mounted. -/
def volume : Volume :=
  { Volume.initial
      { image := l.image fat, access := some true, buffer := fun _ => 0, curBlk := 0
        fp := some true, faults := [] } with
    toGeometry := l.geometry }

theorem carries_image : l.Carries (l.image fat) fat := by
  intro c
  have hc := c.isLt
  have hodd : (l.fatStart + 2 * c.toNat + 1 - l.fatStart) / 2 = c.toNat := by omega
  have heven : (l.fatStart + 2 * c.toNat - l.fatStart) / 2 = c.toNat := by omega
  constructor
  · simp only [image]
    rw [if_pos (by omega), if_pos (by omega), heven, BitVec.ofNat_toNat, BitVec.setWidth_eq]
  · simp only [image]
    rw [if_pos (by omega), if_neg (by omega), hodd, BitVec.ofNat_toNat, BitVec.setWidth_eq]

/-- Beyond 4 GiB the code looks for the entry where there is nothing. -/
theorem entry_high {c : Word} (h : 2 ^ 32 ≤ l.fatStart + 2 * c.toNat) :
    l.geometry.entry (l.image fat) c = 0 := by
  have hc := c.isLt
  rw [entry_eq]
  simp only [image]
  rw [if_neg (by omega), if_neg (by omega)]
  rfl

theorem links_low {c c' : Word} {o o' : ULong} {n : Nat}
    (h : Links l.geometry (l.image fat) c o n c' o') :
    c' = fat^[n] c ∧ ∀ i < n, l.fatStart + 2 * (fat^[i] c).toNat < 2 ^ 32 := by
  induction h with
  | stop => exact ⟨rfl, fun i hi => absurd hi (Nat.not_lt_zero i)⟩
  | @link c c' o o' n _ _ hlink _ ih =>
      have hlow : l.fatStart + 2 * c.toNat < 2 ^ 32 := by
        by_contra hhigh
        rw [l.entry_high fat (not_lt.mp hhigh)] at hlink
        exact absurd hlink (by decide)
      rw [l.entry_low (l.carries_image fat) hlow] at ih
      refine ⟨ih.1, fun i hi => ?_⟩
      cases i with
      | zero => exact hlow
      | succ i => exact ih.2 i (Nat.lt_of_succ_lt_succ hi)

theorem target_lt {c : Word} {o : ULong}
    (hlink : ∀ i ≤ o.toNat / l.clusterBytes, IsLink (fat^[i] c)) : l.target fat c o < 2 ^ 62 := by
  have hmod := Nat.mod_lt o.toNat l.clusterBytes_pos
  have hnat : (BitVec.ofNat 64 (o.toNat % l.clusterBytes)).toNat = o.toNat % l.clusterBytes := by
    rw [BitVec.toNat_ofNat]
    exact Nat.mod_eq_of_lt ((Nat.mod_le _ _).trans_lt o.isLt)
  have h := (l.toNat_dataSector (hlink _ le_rfl).1 (by rw [hnat]; exact hmod.le)).2
  rwa [hnat] at h

theorem serves_volume {c : Word} {o : ULong}
    (hlink : ∀ i ≤ o.toNat / l.clusterBytes, IsLink (fat^[i] c)) :
    Serves l fat c o (l.volume fat) where
  geometry := rfl
  carries := l.carries_image fat
  empty := rfl
  opened := fun h => nomatch h
  quiet := rfl
  fatRead := by
    intro i _
    have hfirst := l.firstSect.isLt
    have hres := l.reserved.isLt
    have hc := (fat^[i] c).isLt
    have hlen : (l.volume fat).card.image.len = 2 ^ 64 := rfl
    rw [hlen, fatStart]
    omega
  dataRead := by
    have := l.target_lt fat hlink
    have hlen : (l.volume fat).card.image.len = 2 ^ 64 := rfl
    omega

end Layout

/-- `fetch_cluster` loads the sector an offset lies in, on every card
with the given volume, if and only if every link it follows lies below
4 GiB and the offset is 0, or not at the beginning of a cluster, or at
the beginning of one that lies right behind the one before. -/
theorem fetch_cluster_iff (l : Layout) (fat : Word → Word) (c : Word) (o : ULong)
    (hlink : ∀ i ≤ o.toNat / l.clusterBytes, IsLink (fat^[i] c)) :
    (∀ v, Serves l fat c o v → ReadsBlock v c o (l.target fat c o))
      ↔ (∀ i < (o.toNat - 1) / l.clusterBytes, l.fatStart + 2 * (fat^[i] c).toNat < 2 ^ 32)
        ∧ (o = 0 ∨ ¬l.clusterBytes ∣ o.toNat
          ∨ fat^[o.toNat / l.clusterBytes] c = fat^[o.toNat / l.clusterBytes - 1] c + 1) := by
  have hcount : (o.toNat - 1) / l.clusterBytes ≤ o.toNat / l.clusterBytes :=
    Nat.div_le_div_right (Nat.sub_le _ _)
  have hc : IsLink c := hlink 0 (Nat.zero_le _)
  constructor
  · intro h
    have hserves := l.serves_volume fat hlink
    obtain ⟨n, blk, hlands, hblk⟩ := (hserves.readsBlock_iff hc _).mp (h _ hserves)
    cases hlands with
    | root => exact absurd hc (by decide)
    | @data _ c' _ o' _ _ hlinks _ =>
        obtain ⟨hn, ho, hle⟩ := l.links_count hlinks
        obtain ⟨rfl, hlow⟩ := l.links_low fat hlinks
        have haddr := (l.toNat_dataSector (hlink n (hn ▸ hcount)).1 hle).1
        exact ⟨hn ▸ hlow, (sectorAddr_iff l hn ho hle hlink).mp (haddr.symm.trans hblk)⟩
  · rintro ⟨hlow, hboundary⟩ v hserves
    rw [hserves.readsBlock_iff hc]
    obtain ⟨o', hlinks⟩ := l.links_chain hserves.carries rfl hlow
      (fun i hi => hserves.fatRead i (hi.trans_le hcount))
      (fun i hi => hlink (i + 1) (hi.trans_le hcount))
    obtain ⟨hn, ho, hle⟩ := l.links_count hlinks
    obtain ⟨haddr, hlt⟩ := l.toNat_dataSector (hlink _ hcount).1 hle
    have htarget := haddr.trans ((sectorAddr_iff l hn ho hle hlink).mpr hboundary)
    refine ⟨_, _, .data ?_ hlinks ⟨?_, ?_, ?_⟩, htarget⟩
    · rintro rfl
      exact absurd hc (by decide)
    · rw [aligned_iff, haddr, Layout.sectorAddr]
      exact Nat.mul_mod_left _ _
    · rw [haddr]
      omega
    · rw [htarget]
      exact hserves.dataRead

/-- A boot sector with one sector per cluster. -/
def Layout.small : Layout where
  firstSect := 1
  reserved := 1
  fats := 1
  fatSectors := 1
  rootEntries := 16
  perCluster := 1
  perCluster_pos := by decide

/-- The FAT of a file with the clusters 2 and 5. -/
def splitChain (c : Word) : Word := if c = 2 then 5 else 0xffff

/-- An offset in the middle of cluster 5. -/
theorem fetch_cluster_middle : ReadsBlock (Layout.small.volume splitChain) 2 600
    (Layout.small.target splitChain 2 600) :=
  (fetch_cluster_iff .small splitChain 2 600 (by decide)).mpr (by decide) _
    (Layout.small.serves_volume splitChain (by decide))

/-- The offset at the beginning of cluster 5: the code loads cluster
3. -/
theorem fetch_cluster_boundary :
    (fetchCluster 2 2 512 (Layout.small.volume splitChain)).map (fun r => (r.1, r.2.card.curBlk))
        = some (0, BitVec.ofNat 64 (Layout.small.sectorAddr 3 0))
      ∧ Serves .small splitChain 2 512 (Layout.small.volume splitChain)
      ∧ ¬ReadsBlock (Layout.small.volume splitChain) 2 512
        (Layout.small.target splitChain 2 512) := by
  have hcode : (fetchCluster 2 2 512 (Layout.small.volume splitChain)).map
      (fun r => (r.1, r.2.card.curBlk))
      = some (0, BitVec.ofNat 64 (Layout.small.sectorAddr 3 0)) := by
    decide +kernel
  have hlink : IsLink 2 := by decide
  have hserves : Serves .small splitChain 2 512 (Layout.small.volume splitChain) :=
    Layout.small.serves_volume splitChain (by decide)
  refine ⟨hcode, hserves, fun hread => ?_⟩
  obtain ⟨⟨r, v'⟩, hrun, hr⟩ := Option.map_eq_some_iff.mp hcode
  obtain ⟨rfl, hcur⟩ := Prod.mk.inj hr
  obtain ⟨_, _, hlands, ⟨_, -, rfl, -, rfl⟩, -⟩ := fetchCluster_lands (hserves.miss hlink) hrun
  obtain ⟨_, _, hlands', htarget⟩ := (hserves.readsBlock_iff hlink _).mp hread
  obtain ⟨-, rfl⟩ := hlands.unique hlands'
  have haddr : (BitVec.ofNat 64 (Layout.small.sectorAddr 3 0)).toNat
      = Layout.small.target splitChain 2 512 := (congrArg BitVec.toNat hcur).symm.trans htarget
  exact absurd haddr (by decide)

end Fat

end CpMega88
