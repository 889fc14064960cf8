import CpMega88.FatChain
import CpMega88.Monitor
import CpMega88.OpenFile

/-!
# A hit and a read

The record of the last request keeps a cluster and an offset, and a
request is answered by it if the cluster is the same and the offsets agree
in bits 9 to 15. The bits above are not compared, so two offsets of one
file that are a multiple of 64 KiB apart are taken for the same.

`cache_hit_iff` says when a second access to the file leaves in the buffer
what it would leave with nothing on record: if the record does not answer
it, or the block that it asks for has the same bytes as the one in the
buffer. Offsets in the same block are that way (`lands_same_block`), apart
from the first one of a cluster, which `fetch_cluster` looks for in the
cluster before.
-/

namespace CpMega88

open Bytes Sdcard

namespace Fat

/-! ## One access -/

/-- `fat_seek` and `fat_read`. -/
def access (fuel : Nat) (pos : ULong) : FatM Int := do
  discard (fatSeek pos)
  fatRead fuel

theorem access_run {v : Volume} {pos : ULong} (hpos : pos < v.fileSize) (fuel : Nat) :
    access fuel pos v = fetchCluster fuel v.fileCluster pos { v with fileOffset := pos } := by
  have hsought : v.sought pos = pos := if_neg (BitVec.not_le.mpr hpos)
  have hseek := Prog.discard_eq_some (u := ()).mpr ⟨_, fatSeek_run pos v⟩
  rw [access, Prog.bind_of_run hseek, hsought]
  rfl

/-- What an access leaves in the buffer: what is there, if the record
answers it, else the block it lands on. -/
def Leaves (v : Volume) (pos : ULong) (b : Nat → Byte) : Prop :=
  if v.hit v.fileCluster pos then ∀ i < 512, b i = v.card.buffer i
  else ∃ n blk, Lands v.toGeometry v.card.image v.fileCluster pos n blk
    ∧ ∀ i < 512, b i = v.card.image.block blk i

/-- The volume after an access to the open file. -/
structure Accessed (v : Volume) (pos : ULong) (v' : Volume) : Prop where
  geometry : v'.toGeometry = v.toGeometry
  image : v'.card.image = v.card.image
  fp : v'.card.fp = v.card.fp
  file : v'.fileCluster = v.fileCluster
  size : v'.fileSize = v.fileSize
  cluster : v'.lastCluster = v.fileCluster
  offset : v'.lastOffset &&& 0xfe00#64 = pos &&& 0xfe00#64
  opened : v.hit v.fileCluster pos ∨ v.card.fp ≠ none
  leaves : Leaves v pos v'.card.buffer
  beyond : ∀ i, 512 ≤ i → v'.card.buffer i = v.card.buffer i

theorem access_accessed {fuel : Nat} {v v' : Volume} {pos : ULong} (hpos : pos < v.fileSize)
    (h : access fuel pos v = some (0, v')) : Accessed v pos v' := by
  rw [access_run hpos] at h
  by_cases hhit : v.hit v.fileCluster pos
  · have hhit' : ({ v with fileOffset := pos } : Volume).hit v.fileCluster pos := hhit
    rw [fetchCluster_hit hhit'] at h
    cases h
    exact ⟨rfl, rfl, rfl, rfl, rfl, hhit.1.symm, hhit.2.symm, .inl hhit,
      (if_pos hhit).mpr fun _ _ => rfl, fun _ _ => rfl⟩
  · have hmiss : ¬({ v with fileOffset := pos } : Volume).hit v.fileCluster pos := hhit
    obtain ⟨n, blk, hlands, ⟨card, ⟨b, k, fs, hkept, rfl⟩, -, hblk, rfl⟩, hfp⟩ :=
      fetchCluster_lands hmiss h
    exact ⟨rfl, rfl, rfl, rfl, rfl, rfl, rfl, .inr hfp,
      (if_neg hhit).mpr ⟨n, blk, hlands, hblk⟩, hkept⟩

/-! ## Two of them -/

/-- The second access leaves what it would leave with nothing on record,
on a card that works. -/
def AsEmpty (v v' : Volume) (pos : ULong) : Prop :=
  ∃ fuel w, access fuel pos v.emptied = some (0, w) ∧ w.card.buffer = v'.card.buffer

/-- The block that an access would read has the same bytes as what the one
before leaves in the buffer. -/
def SameBytes (v : Volume) (pos pos' : ULong) : Prop :=
  v.card.fp ≠ none ∧ ∃ n blk, Lands v.toGeometry v.card.image v.fileCluster pos' n blk
    ∧ Leaves v pos (v.card.image.block blk)

theorem leaves_iff {v v' : Volume} {pos : ULong} (h : Accessed v pos v') (b : Nat → Byte) :
    Leaves v pos b ↔ ∀ i < 512, v'.card.buffer i = b i := by
  have hleft := h.leaves
  rw [Leaves] at hleft ⊢
  split at hleft
  case isTrue hhit =>
    rw [if_pos hhit]
    exact forall₂_congr fun i hi => by rw [hleft i hi, eq_comm]
  case isFalse hmiss =>
    obtain ⟨n, blk, hlands, hblk⟩ := hleft
    rw [if_neg hmiss]
    constructor
    · rintro ⟨n', blk', hlands', hb⟩ i hi
      obtain ⟨-, rfl⟩ := hlands.unique hlands'
      rw [hblk i hi, hb i hi]
    · intro hb
      exact ⟨n, blk, hlands, fun i hi => by rw [← hb i hi, hblk i hi]⟩

theorem asEmpty_iff {v v' : Volume} {pos : ULong} (hfile : v.fileCluster ≠ 0xffff)
    (hpos : pos < v.fileSize) (h : Accessed v pos v') :
    AsEmpty v v' pos ↔ v.card.fp ≠ none ∧ ∃ n blk,
      Lands v.toGeometry v.card.image v.fileCluster pos n blk
        ∧ ∀ i < 512, v'.card.buffer i = v.card.image.block blk i := by
  have hpos' : pos < v.emptied.fileSize := hpos
  have hemptied := emptied_iff (v := { v with fileOffset := pos }) (o := pos) hfile h.beyond
  rw [AsEmpty, ← hemptied]
  refine exists₂_congr fun fuel w => ?_
  rw [access_run hpos' fuel]
  rfl

theorem sameBytes_iff {v v' : Volume} {pos pos' : ULong} (h : Accessed v pos v') :
    SameBytes v pos pos' ↔ v'.card.fp ≠ none ∧ ∃ n blk,
      Lands v'.toGeometry v'.card.image v'.fileCluster pos' n blk
        ∧ ∀ i < 512, v'.card.buffer i = v'.card.image.block blk i := by
  rw [SameBytes, h.geometry, h.image, h.fp, h.file]
  simp only [leaves_iff h]

/-! ## Offsets in one block -/

/-- An offset that `fetch_cluster` looks for in the cluster it is in. -/
def Inside (g : Geometry) (o : ULong) : Prop := o = 0 ∨ ¬g.clusterBytes.toNat ∣ o.toNat

theorem Inside.step {g : Geometry} {o : ULong} (h : Inside g o) (hgo : g.clusterBytes < o) :
    (o - g.clusterBytes).toNat = o.toNat - g.clusterBytes.toNat
      ∧ Inside g (o - g.clusterBytes) := by
  have hsub : (o - g.clusterBytes).toNat = o.toNat - g.clusterBytes.toNat :=
    BitVec.toNat_sub_of_le (BitVec.le_of_lt hgo)
  rw [BitVec.lt_def] at hgo
  refine ⟨hsub, .inr fun hdvd => ?_⟩
  rw [hsub, Nat.dvd_sub_iff_left hgo.le (dvd_refl _)] at hdvd
  rcases h with rfl | hno
  · exact absurd hgo (Nat.not_lt_zero _)
  · exact hno hdvd

/-- Both of two such offsets are in the first cluster, or neither is. -/
theorem Inside.first_iff {g : Geometry} {o o' : ULong} (hspc : g.sectorsPerCluster ≠ 0)
    (ho : Inside g o) (ho' : Inside g o') (hsame : o.toNat / 512 = o'.toNat / 512) :
    g.clusterBytes < o ↔ g.clusterBytes < o' := by
  have hspc' : g.sectorsPerCluster.toNat ≠ 0 := fun h => hspc (BitVec.eq_of_toNat_eq h)
  have hbytes := toNat_clusterBytes g
  have hne {a : ULong} (ha : Inside g a) : a.toNat ≠ g.clusterBytes.toNat := by
    rcases ha with rfl | hno
    · intro hzero
      rw [hbytes, show (0 : ULong).toNat = 0 from rfl] at hzero
      omega
    · intro heq
      exact hno (heq ▸ dvd_refl _)
  have hno := hne ho
  have hno' := hne ho'
  rw [BitVec.lt_def, BitVec.lt_def]
  omega

theorem shift9_eq {o o' : ULong} (h : o.toNat / 512 = o'.toNat / 512) : o >>> 9 = o' >>> 9 := by
  apply BitVec.eq_of_toNat_eq
  rw [BitVec.toNat_ushiftRight, BitVec.toNat_ushiftRight, Nat.shiftRight_eq_div_pow,
    Nat.shiftRight_eq_div_pow]
  exact h

theorem links_same_block {g : Geometry} {image : Image} {c c' : Word} {o o' r : ULong} {n : Nat}
    (hspc : g.sectorsPerCluster ≠ 0) (ho : Inside g o) (ho' : Inside g o')
    (hsame : o.toNat / 512 = o'.toNat / 512) (h : Links g image c o n c' r) :
    ∃ r', Links g image c o' n c' r' ∧ r.toNat / 512 = r'.toNat / 512 := by
  induction h generalizing o' with
  | stop hstop => exact ⟨o', .stop (mt (ho.first_iff hspc ho' hsame).mpr hstop), hsame⟩
  | link hgo hholds hlink _ ih =>
      have hgo' := (ho.first_iff hspc ho' hsame).mp hgo
      obtain ⟨hsub, hinside⟩ := ho.step hgo
      obtain ⟨hsub', hinside'⟩ := ho'.step hgo'
      have hbytes := toNat_clusterBytes g
      obtain ⟨r', hrest, hr⟩ := ih hinside hinside' (by omega)
      exact ⟨r', .link hgo' hholds hlink hrest, hr⟩

/-- Offsets in one block land on one block. -/
theorem lands_same_block {g : Geometry} {image : Image} {c : Word} {o o' blk : ULong} {n : Nat}
    (hspc : g.sectorsPerCluster ≠ 0) (ho : Inside g o) (ho' : Inside g o')
    (hsame : o.toNat / 512 = o'.toNat / 512) (h : Lands g image c o n blk) :
    Lands g image c o' n blk := by
  cases h with
  | root hholds =>
      have hsector : g.rootSector o = g.rootSector o' := by
        rw [Geometry.rootSector, Geometry.rootSector, shift9_eq hsame]
      rw [hsector] at hholds ⊢
      exact .root hholds
  | data hc hlinks hholds =>
      obtain ⟨r', hlinks', hr⟩ := links_same_block hspc ho ho' hsame hlinks
      rw [Geometry.dataSector, shift9_eq hr, ← Geometry.dataSector] at hholds ⊢
      exact .data hc hlinks' hholds

/-- So an access to the same block has the same bytes as the one before,
if that has read them. -/
theorem sameBytes_of_block {fuel : Nat} {v v' : Volume} {pos pos' : ULong}
    (hspc : v.sectorsPerCluster ≠ 0) (hpos : Inside v.toGeometry pos)
    (hpos' : Inside v.toGeometry pos') (hsame : pos.toNat / 512 = pos'.toNat / 512)
    (hmiss : ¬v.hit v.fileCluster pos) (hlt : pos < v.fileSize)
    (h : access fuel pos v = some (0, v')) : SameBytes v pos pos' := by
  have haccessed := access_accessed hlt h
  have hleft := haccessed.leaves
  rw [Leaves, if_neg hmiss] at hleft
  obtain ⟨n, blk, hlands, -⟩ := hleft
  refine ⟨haccessed.opened.resolve_left hmiss, n, blk,
    lands_same_block hspc hpos hpos' hsame hlands, ?_⟩
  exact (if_neg hmiss).mpr ⟨n, blk, hlands, fun _ _ => rfl⟩

/-! ## When the second is right -/

/-- Of two accesses to a file, one after the other, the second leaves what
it would with nothing on record if the record does not answer it, or the
bytes are the same, and only then. -/
theorem cache_hit_iff {v v₁ v₂ : Volume} {p₁ p₂ : ULong} {fuel₁ fuel₂ : Nat}
    (hfile : v.fileCluster ≠ 0xffff) (hp₁ : p₁ < v.fileSize) (hp₂ : p₂ < v.fileSize)
    (h₁ : access fuel₁ p₁ v = some (0, v₁)) (h₂ : access fuel₂ p₂ v₁ = some (0, v₂)) :
    AsEmpty v₁ v₂ p₂ ↔ p₁ &&& 0xfe00#64 ≠ p₂ &&& 0xfe00#64 ∨ SameBytes v p₁ p₂ := by
  have hfirst := access_accessed hp₁ h₁
  have hp₂' : p₂ < v₁.fileSize := by
    rw [hfirst.size]
    exact hp₂
  have hsecond := access_accessed hp₂' h₂
  have hleft := hsecond.leaves
  rw [asEmpty_iff (by rwa [hfirst.file]) hp₂' hsecond, sameBytes_iff hfirst]
  by_cases hsame : p₁ &&& 0xfe00#64 = p₂ &&& 0xfe00#64
  · have hhit : v₁.hit v₁.fileCluster p₂ :=
      ⟨hfirst.file.trans hfirst.cluster.symm, hsame.symm.trans hfirst.offset.symm⟩
    rw [Leaves, if_pos hhit] at hleft
    have hkept (b : Nat → Byte) :
        (∀ i < 512, v₂.card.buffer i = b i) ↔ ∀ i < 512, v₁.card.buffer i = b i :=
      forall₂_congr fun i hi => by rw [hleft i hi]
    simp only [hkept, hsame, ne_eq, not_true_eq_false, false_or]
  · have hmiss : ¬v₁.hit v₁.fileCluster p₂ := by
      rintro ⟨-, hoffset⟩
      exact hsame (hfirst.offset.symm.trans hoffset.symm)
    rw [Leaves, if_neg hmiss] at hleft
    exact iff_of_true ⟨hsecond.opened.resolve_left hmiss, hleft⟩ (.inl hsame)

/-! ## 64 KiB apart -/

/-- A volume with clusters of 32 KiB. -/
def wide : Layout where
  firstSect := 1
  reserved := 1
  fats := 1
  fatSectors := 256
  rootEntries := 1024
  perCluster := 64
  perCluster_pos := by decide

/-- A file of three clusters, one behind the other, open; its third one
begins with a one, and there are zeros before. -/
def threeClusters : Volume :=
  { Volume.initial
      { image :=
          { len := 2 ^ 20
            byte := fun a => if a = wide.sectorAddr 4 0 then 1 else (wide.image (· + 1)).byte a }
        access := some true, buffer := fun _ => 0, curBlk := 0, fp := some true, faults := [] } with
    toGeometry := wide.geometry
    fileCluster := 2
    fileSize := 3 * 32768 }

/-- An access to the first cluster. -/
theorem threeClusters_first : ∃ v₁, access 1 100 threeClusters = some (0, v₁) := by
  have hrun : (access 1 100 threeClusters).map Prod.fst = some 0 := by decide +kernel
  obtain ⟨⟨r, v₁⟩, hv₁, hr⟩ := Option.map_eq_some_iff.mp hrun
  obtain rfl : r = 0 := hr
  exact ⟨v₁, hv₁⟩

/-- What an access behind that one returns and leaves at the beginning of
the buffer. -/
def afterFirst (x : Volume → Option (Int × Volume)) : Option (Int × Byte) :=
  (access 1 100 threeClusters).bind fun r => (x r.2).map fun r => (r.1, r.2.card.buffer 0)

theorem afterFirst_run {v₁ : Volume} (h : access 1 100 threeClusters = some (0, v₁))
    {x : Volume → Option (Int × Volume)} {b : Byte} (hx : afterFirst x = some (0, b)) :
    ∃ v₂, x v₁ = some (0, v₂) ∧ v₂.card.buffer 0 = b := by
  rw [afterFirst, h, Option.bind_some] at hx
  obtain ⟨⟨r, v₂⟩, hv₂, hr⟩ := Option.map_eq_some_iff.mp hx
  obtain ⟨rfl, hb⟩ := Prod.mk.inj hr
  exact ⟨v₂, hv₂, hb⟩

/-- The block behind it is read. -/
theorem cache_hit_next : ∃ v₁ v₂, access 1 100 threeClusters = some (0, v₁)
    ∧ access 1 612 v₁ = some (0, v₂) ∧ AsEmpty v₁ v₂ 612 := by
  obtain ⟨v₁, h₁⟩ := threeClusters_first
  have hnext : afterFirst (access 1 612) = some (0, 0) := by decide +kernel
  obtain ⟨v₂, h₂, -⟩ := afterFirst_run h₁ hnext
  exact ⟨v₁, v₂, h₁, h₂, (cache_hit_iff (by decide) (by decide) (by decide) h₁ h₂).mpr
    (.inl (by decide))⟩

/-- 64 KiB on, the record answers, and the first cluster is taken for the
third one. -/
theorem cache_hit_far : ∃ v₁ v₂, access 1 100 threeClusters = some (0, v₁)
    ∧ access 1 65636 v₁ = some (0, v₂) ∧ v₂.card.buffer 0 = 0
    ∧ (∃ w, access 3 65636 v₁.emptied = some (0, w) ∧ w.card.buffer 0 = 1)
    ∧ ¬AsEmpty v₁ v₂ 65636 := by
  obtain ⟨v₁, h₁⟩ := threeClusters_first
  have hhit : afterFirst (access 1 65636) = some (0, 0) := by decide +kernel
  have hempty : afterFirst (fun v => access 3 65636 v.emptied) = some (0, 1) := by decide +kernel
  obtain ⟨v₂, h₂, hzero⟩ := afterFirst_run h₁ hhit
  obtain ⟨w, hw, hone⟩ := afterFirst_run h₁ hempty
  refine ⟨v₁, v₂, h₁, h₂, hzero, ⟨w, hw, hone⟩, ?_⟩
  rintro ⟨fuel, w', hw', hbuf⟩
  have hlt : (65636 : ULong) < v₁.emptied.fileSize := by
    rw [show v₁.emptied.fileSize = v₁.fileSize from rfl,
      (access_accessed (by decide) h₁).size]
    decide
  rw [access_run hlt] at hw hw'
  have hsame := (fetchCluster_mono (Nat.le_max_left 3 fuel) hw).symm.trans
    (fetchCluster_mono (Nat.le_max_right 3 fuel) hw')
  cases hsame
  rw [hbuf, hzero] at hone
  exact absurd hone (by decide)

end Fat

end CpMega88
