import CpMega88.OpenFile
import CpMega88.RootDir

/-!
# A file in one piece

Most files lie on a card in clusters that follow each other (`Extent`),
and there the boundary between two clusters does not matter: the code
looks for the end of one where the next begins. So each offset of such a
file has a landing (`Extent.lands`), at that distance from the beginning
of the file, and what is written into the file leaves its chain alone
(`Extent.fwrite`).
-/

namespace CpMega88

open Bytes Sdcard Splice

namespace Fat

/-- The first byte of a cluster on the card. -/
def Geometry.clusterPos (g : Geometry) (c : Word) : Nat := (g.dataSector c 0 <<< 9).toNat

/-- The `n` clusters from `c` on are linked in order, with their FAT
entries before the root directory, and on the card. -/
structure Extent (g : Geometry) (image : Image) (c : Word) (n : Nat) : Prop where
  formatted : Formatted g
  low : 2 ≤ c.toNat
  high : c.toNat + n ≤ 0xfff7
  next : ∀ k, k + 1 < n →
    g.entry image (c + BitVec.ofNat 16 k) = c + BitVec.ofNat 16 (k + 1)
  fat : ∀ k < n, (g.fatPos (c + BitVec.ofNat 16 k)).toNat + 2 ≤ g.dirSector.toNat * 512
    ∧ (g.fatPos (c + BitVec.ofNat 16 k)).toNat + 2 ≤ 2 ^ 32
  inside : g.clusterPos c + n * g.clusterBytes.toNat ≤ image.len

namespace Extent

variable {g : Geometry} {image : Image} {c : Word} {n : Nat}

theorem toNat_cluster (h : Extent g image c n) {k : Nat} (hk : k < n) :
    (c + BitVec.ofNat 16 k).toNat = c.toNat + k :=
  toNat_add_ofNat rfl (by have := h.high; omega)

theorem isLink (h : Extent g image c n) {k : Nat} (hk : k < n) :
    IsLink (c + BitVec.ofNat 16 k) := by
  have hlow := h.low
  have hhigh := h.high
  rw [IsLink, h.toNat_cluster hk]
  omega

/-- The address of the block that an offset is in. -/
theorem address (h : Extent g image c n) {k : Nat} (hk : k < n) {o : ULong}
    (ho : o.toNat ≤ g.clusterBytes.toNat) :
    (g.dataSector (c + BitVec.ofNat 16 k) o <<< 9).toNat
        = g.clusterPos c + (k * g.clusterBytes.toNat + o.toNat) / 512 * 512
      ∧ (g.dataSector (c + BitVec.ofNat 16 k) o <<< 9).toNat < 2 ^ 62 := by
  have hspc := g.sectorsPerCluster.isLt
  have hbytes := toNat_clusterBytes g
  have hlow := h.low
  have hcluster := h.toNat_cluster hk
  obtain ⟨haddr, hsmall⟩ := toNat_dataSector g h.formatted.dirSector
    (c := c + BitVec.ofNat 16 k) (o := o) (by omega) (by omega)
  obtain ⟨hbase, -⟩ := toNat_dataSector g h.formatted.dirSector hlow (o := 0) (by decide)
  refine ⟨?_, hsmall⟩
  rw [Geometry.clusterPos, haddr, hbase, hcluster, hbytes, ← Nat.mul_assoc,
    show k * g.sectorsPerCluster.toNat * 512 + o.toNat
      = o.toNat + 512 * (k * g.sectorsPerCluster.toNat) by omega,
    Nat.add_mul_div_left _ _ (by decide : 0 < 512),
    show g.dirSize.toNat + (c.toNat + k - 2) = g.dirSize.toNat + (c.toNat - 2) + k by omega,
    Nat.add_mul _ k, show (0 : ULong).toNat = 0 from rfl]
  omega

theorem fat_before (h : Extent g image c n) :
    g.dirSector.toNat * 512 ≤ g.clusterPos c := by
  obtain ⟨hbase, -⟩ := toNat_dataSector g h.formatted.dirSector h.low (o := 0) (by decide)
  rw [Geometry.clusterPos, hbase, Nat.add_assoc]
  exact Nat.mul_le_mul_right 512 (Nat.le_add_right _ _)

/-! ## Following the links -/

theorem fatBlock_holds (h : Extent g image c n) {k : Nat} (hk : k < n) :
    image.Holds (g.fatBlock (c + BitVec.ofNat 16 k)) := by
  obtain ⟨hfat, hlow⟩ := h.fat k hk
  have hbefore := h.fat_before
  have hinside := h.inside
  have hblock := toNat_fatBlock g (c + BitVec.ofNat 16 k)
  refine ⟨(aligned_iff _).mpr (by omega), by omega, ?_⟩
  omega

theorem links (h : Extent g image c n) {k : Nat} : ∀ {j : Nat} {o : ULong}, j + k < n →
    (k = 0 ∨ k * g.clusterBytes.toNat < o.toNat) → o.toNat ≤ (k + 1) * g.clusterBytes.toNat →
    ∃ o', Links g image (c + BitVec.ofNat 16 j) o k (c + BitVec.ofNat 16 (j + k)) o'
      ∧ k * g.clusterBytes.toNat + o'.toNat = o.toNat := by
  induction k with
  | zero =>
      intro j o hj hmore hle
      refine ⟨o, .stop ?_, by omega⟩
      rw [BitVec.lt_def]
      omega
  | succ k ih =>
      intro j o hj hmore hle
      have hgo : g.clusterBytes.toNat < o.toNat := by
        rcases hmore with h0 | hmore
        · omega
        · rw [Nat.succ_mul] at hmore
          omega
      have hrest : (o - g.clusterBytes).toNat = o.toNat - g.clusterBytes.toNat :=
        BitVec.toNat_sub_of_le (BitVec.le_def.mpr (Nat.le_of_lt hgo))
      have hnext := h.next j (by omega)
      obtain ⟨o', hlinks, ho'⟩ := ih (j := j + 1) (o := o - g.clusterBytes) (by omega)
        (by
          rw [hrest]
          rcases hmore with h0 | hmore
          · omega
          · rw [Nat.succ_mul] at hmore
            omega)
        (by
          rw [hrest]
          rw [Nat.succ_mul] at hle
          omega)
      rw [Nat.add_right_comm, ← hnext] at hlinks
      refine ⟨o', .link (BitVec.lt_def.mpr hgo) (h.fatBlock_holds (by omega)) ?_ hlinks, ?_⟩
      · rw [hnext]
        exact h.isLink (by omega)
      · rw [Nat.succ_mul]
        omega

/-- Each offset of the file has its block, at that distance from the
beginning. -/
theorem lands (h : Extent g image c n) {o : ULong} (ho : o.toNat < n * g.clusterBytes.toNat) :
    ∃ k blk, k < n ∧ Lands g image c o k blk ∧ image.Holds blk
      ∧ blk.toNat = g.clusterPos c + o.toNat / 512 * 512 := by
  have hpos := h.formatted.clusterBytes_pos
  have hbytes := toNat_clusterBytes g
  obtain ⟨k, hk⟩ : ∃ k, k = (o.toNat - 1) / g.clusterBytes.toNat := ⟨_, rfl⟩
  have hkn : k < n := by
    rw [hk]
    exact Nat.div_lt_of_lt_mul (by rw [Nat.mul_comm]; omega)
  have hle : o.toNat ≤ (k + 1) * g.clusterBytes.toNat := by
    have := Nat.lt_mul_div_succ (o.toNat - 1) hpos
    rw [← hk, Nat.mul_comm] at this
    omega
  have hmore : k = 0 ∨ k * g.clusterBytes.toNat < o.toNat := by
    have := Nat.div_mul_le_self (o.toNat - 1) g.clusterBytes.toNat
    rw [← hk] at this
    rcases Nat.eq_zero_or_pos o.toNat with h0 | hopos
    · refine .inl ?_
      rw [hk, h0]
      exact Nat.zero_div _
    · exact .inr (by omega)
  obtain ⟨o', hlinks, ho'⟩ := h.links (j := 0) (by omega) hmore hle
  rw [Nat.zero_add, BitVec.add_zero] at hlinks
  have hshort : o'.toNat ≤ g.clusterBytes.toNat := by
    rw [Nat.succ_mul] at hle
    omega
  obtain ⟨haddr, hsmall⟩ := h.address hkn hshort
  rw [ho'] at haddr
  have hholds : image.Holds (g.dataSector (c + BitVec.ofNat 16 k) o' <<< 9) := by
    have hinside := h.inside
    have hend : o.toNat / 512 * 512 + 512 ≤ n * g.clusterBytes.toNat := by
      rw [hbytes, ← Nat.mul_assoc] at ho ⊢
      omega
    refine ⟨?_, by omega, by omega⟩
    rw [aligned_iff, BitVec.toNat_shiftLeft, Nat.shiftLeft_eq]
    omega
  refine ⟨k, _, hkn, .data ?_ hlinks hholds, hholds, haddr⟩
  rintro rfl
  exact absurd h.low (by decide)

/-! ## Writing into the file -/

/-- The chain is read before the data. -/
theorem congr (h : Extent g image c n) {image' : Image} (hlen : image.len ≤ image'.len)
    (hfat : ∀ a < g.clusterPos c, image'.byte a = image.byte a) : Extent g image' c n where
  formatted := h.formatted
  low := h.low
  high := h.high
  next := by
    intro k hk
    obtain ⟨hfat', hlow⟩ := h.fat k (by omega)
    have hbefore := h.fat_before
    have hmod : (g.fatPos (c + BitVec.ofNat 16 k)).toNat % 2 ^ 32
        = (g.fatPos (c + BitVec.ofNat 16 k)).toNat := Nat.mod_eq_of_lt (by omega)
    rw [← h.next k hk, entry_eq, entry_eq, hmod, hfat _ (by omega), hfat _ (by omega)]
  fat := h.fat
  inside := h.inside.trans hlen

theorem fwrite (h : Extent g image c n) (buffer : Nat → Byte) {blk : ULong}
    (hge : g.clusterPos c ≤ blk.toNat) : Extent g (fwriteImage image buffer blk) c n := by
  refine h.congr (Nat.le_max_left _ _) fun a ha => fwriteImage_out (.inl (by omega)) ?_
  have := h.inside
  omega

end Extent

/-! ## What is left of the faults -/

/-- Of the faults to come some are used up. -/
def Used (v v' : Volume) : Prop := v'.card.faults <:+ v.card.faults

instance : IsPreorder Volume Used where
  refl _ := List.suffix_rfl
  trans _ _ _ h h' := List.IsSuffix.trans h' h

instance : MayRead Used where
  fetch v blk := by
    show (fetch blk v.card).2.faults <:+ v.card.faults
    rw [fetch_run]
    split_ifs
    · exact List.suffix_rfl
    · exact List.suffix_rfl
    all_goals exact List.tail_suffix _
  record _ _ _ := List.suffix_rfl
  seek _ _ := List.suffix_rfl

end Fat

end CpMega88
