import CpMega88.BootVolume
import CpMega88.EepromCrash

/-!
# Looking a name up in the root directory

`findFrom` is a scan of directory entries that are given block by block:
it passes over unused entries and other names, and gives up at a block
that cannot be read. `mount` in the root directory is this scan
(`mount_root`), over the blocks of the card, or with what is in the buffer
in place of the first one if that happens to be on record (`Searching`).

A block of the root directory is recorded by bits 9 to 15 of its offset,
so that two blocks may share a record, but not two in succession.
-/

namespace CpMega88

open Bytes Sdcard Splice

namespace Fat

/-! ## The scan -/

/-- What an entry at an offset of a block says. -/
def unusedAt (buffer : Nat → Byte) (off : Word) : Prop :=
  buffer off.toNat = 0 ∨ buffer off.toNat &&& 0x80#8 ≠ 0 ∨ buffer (off + 11).toNat = 0x0f#8

instance (buffer : Nat → Byte) (off : Word) : Decidable (unusedAt buffer off) :=
  inferInstanceAs (Decidable (_ ∨ _ ∨ _))

def clusterAt (buffer : Nat → Byte) (off : Word) : Word :=
  word (buffer (off + 26 + 1).toNat) (buffer (off + 26).toNat)

def sizeAt (buffer : Nat → Byte) (off : Word) : ULong :=
  (word (buffer (off + 28 + 2 + 1).toNat) (buffer (off + 28 + 2).toNat)).setWidth 64 <<< 16
    ||| (word (buffer (off + 28 + 1).toNat) (buffer (off + 28).toNat)).setWidth 64

/-- Where entry `i` is in its block. -/
def offAt (i : Nat) : Word := BitVec.ofNat 16 (i % 16 * 32)

/-- Entry `i` is in use and has the name. -/
def matchAt (name : List Byte) (buffer : Nat → Byte) (i : Nat) : Prop :=
  ¬unusedAt buffer (offAt i) ∧ Machine.strdcmp name (nameAt buffer (offAt i) 11 0) 0 = 0

instance (name : List Byte) (buffer : Nat → Byte) (i : Nat) :
    Decidable (matchAt name buffer i) :=
  inferInstanceAs (Decidable (_ ∧ _))

/-- First cluster and size of the first entry with the name, among the
`left` from `i` on. -/
def findFrom (name : List Byte) (block : Nat → Option (Nat → Byte)) :
    Nat → Nat → Option (Word × ULong)
  | 0, _ => none
  | left + 1, i =>
    match block (i / 16) with
    | none => none
    | some buffer =>
      if matchAt name buffer i then some (clusterAt buffer (offAt i), sizeAt buffer (offAt i))
      else findFrom name block left (i + 1)

theorem findFrom_found {name : List Byte} {block : Nat → Option (Nat → Byte)} {left i : Nat}
    {buffer : Nat → Byte} (hblock : block (i / 16) = some buffer) (h : matchAt name buffer i) :
    findFrom name block (left + 1) i
      = some (clusterAt buffer (offAt i), sizeAt buffer (offAt i)) := by
  rw [findFrom, hblock]
  exact if_pos h

theorem findFrom_next {name : List Byte} {block : Nat → Option (Nat → Byte)} {left i : Nat}
    {buffer : Nat → Byte} (hblock : block (i / 16) = some buffer) (h : ¬matchAt name buffer i) :
    findFrom name block (left + 1) i = findFrom name block left (i + 1) := by
  rw [findFrom, hblock]
  exact if_neg h

theorem findFrom_unread {name : List Byte} {block : Nat → Option (Nat → Byte)} {left i : Nat}
    (hblock : block (i / 16) = none) : findFrom name block (left + 1) i = none := by
  rw [findFrom, hblock]

/-! ## Only the block matters -/

theorem toNat_offAt (i : Nat) : (offAt i).toNat = i % 16 * 32 := by
  rw [offAt, BitVec.toNat_ofNat]
  omega

/-- The bytes of an entry are in its block. -/
theorem offAt_lt (i : Nat) {k : Nat} (hk : k < 32) : (offAt i + BitVec.ofNat 16 k).toNat < 512 := by
  rw [BitVec.toNat_add, toNat_offAt, BitVec.toNat_ofNat]
  omega

section Congr

variable {f g : Nat → Byte} (h : ∀ k < 512, f k = g k) (i : Nat)

include h

theorem byteAt_congr {k : Nat} (hk : k < 32) :
    f (offAt i + BitVec.ofNat 16 k).toNat = g (offAt i + BitVec.ofNat 16 k).toNat :=
  h _ (offAt_lt i hk)

theorem unusedAt_congr : unusedAt f (offAt i) ↔ unusedAt g (offAt i) := by
  have h0 : f (offAt i).toNat = g (offAt i).toNat := h _ (by rw [toNat_offAt]; omega)
  have h11 : f (offAt i + 11).toNat = g (offAt i + 11).toNat :=
    byteAt_congr h i (by decide : 11 < 32)
  rw [unusedAt, unusedAt, h0, h11]

theorem nameAt_congr (left j : Nat) (hj : j + left ≤ 32) :
    nameAt f (offAt i) left j = nameAt g (offAt i) left j := by
  induction left generalizing j with
  | zero => rfl
  | succ left ih =>
      rw [nameAt, nameAt, byteAt_congr h i (by omega : j < 32), ih (j + 1) (by omega)]

/-- A number of two bytes within the entry. -/
theorem wordAt_congr {k : Nat} (hk : k + 1 < 32) {off : Word}
    (hoff : off = offAt i + BitVec.ofNat 16 k) :
    word (f (off + 1).toNat) (f off.toNat) = word (g (off + 1).toNat) (g off.toNat) := by
  have hnext : off + 1 = offAt i + BitVec.ofNat 16 (k + 1) := by
    rw [hoff, BitVec.add_assoc, BitVec.ofNat_add]
    rfl
  rw [hnext, hoff, byteAt_congr h i hk, byteAt_congr h i (by omega : k < 32)]

theorem clusterAt_congr : clusterAt f (offAt i) = clusterAt g (offAt i) :=
  wordAt_congr h i (by decide : 26 + 1 < 32) rfl

theorem sizeAt_congr : sizeAt f (offAt i) = sizeAt g (offAt i) := by
  have hhigh : offAt i + 28 + 2 = offAt i + BitVec.ofNat 16 30 := BitVec.add_assoc _ _ _
  have hlow : offAt i + 28 = offAt i + BitVec.ofNat 16 28 := rfl
  rw [sizeAt, sizeAt, wordAt_congr h i (by decide) hhigh, wordAt_congr h i (by decide) hlow]

end Congr

/-! ## Blocks on record -/

/-- Where the scan asks for entry `i`. -/
def rootOffset (i : Nat) : ULong := BitVec.ofNat 64 (i * 32)

/-- The record keeps seven bits of the number of a block. -/
theorem sameRecord_iff (x y : ULong) :
    x &&& 0xfe00#64 = y &&& 0xfe00#64 ↔ x.toNat / 512 % 128 = y.toNat / 512 % 128 := by
  have hmask (z : ULong) : (z &&& 0xfe00#64).toNat = z.toNat / 512 % 128 * 512 := by
    have hdiv : (z.toNat &&& 0xfe00) / 2 ^ 9 = z.toNat / 2 ^ 9 % 2 ^ 7 := by
      rw [Nat.and_div_two_pow]
      exact Nat.and_two_pow_sub_one_eq_mod _ 7
    have hmod : (z.toNat &&& 0xfe00) % 2 ^ 9 = 0 := by
      rw [Nat.and_mod_two_pow]
      exact Nat.and_zero _
    have hand : (z &&& 0xfe00#64).toNat = z.toNat &&& 0xfe00 := BitVec.toNat_and ..
    omega
  rw [← BitVec.toNat_inj, hmask, hmask]
  omega

theorem toNat_rootOffset {i : Nat} (hi : i < 2 ^ 16) : (rootOffset i).toNat = i * 32 := by
  rw [rootOffset, BitVec.toNat_ofNat]
  omega

theorem dirOffset_rootOffset {w : Word} {i : Nat} (h : w.toNat = i) :
    (w.setWidth 64 <<< 5 : ULong) = rootOffset i := by
  have hlt := w.isLt
  apply BitVec.eq_of_toNat_eq
  rw [toNat_rootOffset (by omega), BitVec.toNat_shiftLeft, BitVec.toNat_setWidth, Nat.shiftLeft_eq]
  omega

theorem entryOff_eq {v : Volume} {i : Nat} (h : v.dirOffset.toNat = i) : v.entryOff = offAt i := by
  apply BitVec.eq_of_toNat_eq
  rw [toNat_offAt, Volume.entryOff, BitVec.toNat_shiftLeft, BitVec.toNat_umod, h,
    show (16#16).toNat = 16 from rfl, Nat.shiftLeft_eq]
  omega

/-- After one entry the record answers for the next one, or for another
block. -/
theorem hit_succ {v : Volume} {i : Nat} (hi : i + 1 < 2 ^ 16) (h : v.hit 0 (rootOffset i)) :
    v.hit 0 (rootOffset (i + 1)) ↔ (i + 1) / 16 = i / 16 := by
  obtain ⟨hlast, hoff⟩ := h
  have hsame : v.hit 0 (rootOffset (i + 1))
      ↔ rootOffset (i + 1) &&& 0xfe00#64 = rootOffset i &&& 0xfe00#64 := by
    rw [Volume.hit, hoff]
    exact and_iff_right hlast
  rw [hsame, sameRecord_iff, toNat_rootOffset hi, toNat_rootOffset (by omega)]
  omega

/-- The address of a block of the root directory. -/
def Geometry.rootAddr (g : Geometry) (b : Nat) : ULong := (g.dirSector + BitVec.ofNat 64 b) <<< 9

theorem rootSector_eq (g : Geometry) {i : Nat} (hi : i < 2 ^ 16) :
    g.rootSector (rootOffset i) <<< 9 = g.rootAddr (i / 16) := by
  have hblock : rootOffset i >>> 9 = BitVec.ofNat 64 (i / 16) := by
    apply BitVec.eq_of_toNat_eq
    rw [BitVec.toNat_ushiftRight, toNat_rootOffset hi, Nat.shiftRight_eq_div_pow,
      BitVec.toNat_ofNat]
    omega
  rw [Geometry.rootSector, hblock]
  rfl

instance (image : Image) (blk : ULong) : Decidable (image.Holds blk) :=
  decidable_of_iff (blk &&& 0x1ff#64 = 0#64 ∧ blk.toNat < 2 ^ 63 ∧ blk.toNat + 512 ≤ image.len)
    ⟨fun h => ⟨h.1, h.2.1, h.2.2⟩, fun h => ⟨h.aligned, h.seeks, h.inside⟩⟩

/-- A block of the root directory on the card, if it can be read. -/
def rootBlock (g : Geometry) (image : Image) (b : Nat) : Option (Nat → Byte) :=
  if image.Holds (g.rootAddr b) then some (image.block (g.rootAddr b)) else none

/-- The scan goes on at entry `i`: it finds `block` in the buffer if that
is on record, and on the card if not. -/
structure Searching (block : Nat → Option (Nat → Byte)) (v : Volume) (i : Nat) : Prop where
  opened : v.card.fp ≠ none
  quiet : v.card.faults = []
  dir : v.dirCluster = 0
  held : v.hit 0 (rootOffset i) → ∃ f, block (i / 16) = some f ∧ ∀ k < 512, v.card.buffer k = f k
  missed : ¬v.hit 0 (rootOffset i) → block (i / 16) = rootBlock v.toGeometry v.card.image (i / 16)
  later : ∀ b, 0 < b → block b = rootBlock v.toGeometry v.card.image b

theorem Searching.next {block : Nat → Option (Nat → Byte)} {v : Volume} {i : Nat}
    (h : Searching block v i) (hhit : v.hit 0 (rootOffset i)) (hi : i + 1 < 2 ^ 16)
    (offset : Word) : Searching block { v with dirOffset := offset } (i + 1) where
  opened := h.opened
  quiet := h.quiet
  dir := h.dir
  held hnext := by
    have hsame := (hit_succ hi hhit).mp hnext
    rw [hsame]
    exact h.held hhit
  missed hnext := h.later _ (by
    have hne := mt (hit_succ hi hhit).mpr hnext
    omega)
  later := h.later

/-- The request for entry `i`. -/
theorem Searching.request {block : Nat → Option (Nat → Byte)} {v : Volume} {i : Nat}
    (h : Searching block v i) (hi : i < 2 ^ 16) (fuel : Nat) :
    ∃ r v', fetchCluster fuel 0 (rootOffset i) v = some (r, v')
      ∧ (r < 0 ∧ block (i / 16) = none
        ∨ r = 0 ∧ Searching block v' i ∧ v'.hit 0 (rootOffset i)) := by
  by_cases hhit : v.hit 0 (rootOffset i)
  · exact ⟨0, v, fetchCluster_hit hhit fuel, .inr ⟨rfl, h, hhit⟩⟩
  · have hfault : v.card.fault = .none := fault_of_quiet h.quiet
    have hblock := h.missed hhit
    rw [rootBlock] at hblock
    have haddr := rootSector_eq v.toGeometry hi
    by_cases hholds : v.card.image.Holds (v.rootAddr (i / 16))
    · rw [if_pos hholds] at hblock
      have hok : FetchOk (v.recorded 0 (rootOffset i)).card (v.rootAddr (i / 16)) :=
        hholds.fetchOk h.opened hfault
      refine ⟨0, (v.recorded 0 (rootOffset i)).withCard (v.card.loaded (v.rootAddr (i / 16))), ?_,
        .inr ⟨rfl, ?_, ⟨rfl, rfl⟩⟩⟩
      · rw [fetchCluster_root hhit, haddr]
        exact onCard_fetch_ok hok
      · refine ⟨h.opened, ?_, h.dir, fun _ => ⟨_, hblock, fun k hk => ?_⟩,
          fun hmiss => absurd ⟨rfl, rfl⟩ hmiss, h.later⟩
        · exact tail_of_quiet h.quiet
        · exact loaded_buffer _ _ hk
    · rw [if_neg hholds] at hblock
      have hfail : ¬FetchOk (v.recorded 0 (rootOffset i)).card (v.rootAddr (i / 16)) :=
        fun hok => hholds hok.holds
      obtain ⟨e, count, faults, hrun, he, -⟩ := fetch_fails hfail
      have hasked : fetchCluster fuel 0 (rootOffset i) v
          = some (e, (v.recorded 0 (rootOffset i)).withCard
            ((v.recorded 0 (rootOffset i)).card.cut (v.rootAddr (i / 16)) count faults)) := by
        rw [fetchCluster_root hhit, haddr, onCard_run, hrun]
      exact ⟨e, _, hasked, .inl ⟨he, hblock⟩⟩

/-- `fat_next` comes to the entry `j`, which is in use; no entry before it
has any name. -/
structure Stopped (block : Nat → Option (Nat → Byte)) (v : Volume) (i last j : Nat) : Prop where
  from_le : i ≤ j
  lt : j < last
  at_entry : v.dirOffset.toNat = j
  searching : Searching block v j
  hit : v.hit 0 (rootOffset j)
  used : ¬v.unused
  passed : ∀ name, findFrom name block (last - i) i = findFrom name block (last - j) j

theorem unused_iff {v : Volume} {i : Nat} {f : Nat → Byte} (hat : v.dirOffset.toNat = i)
    (hf : ∀ k < 512, v.card.buffer k = f k) : v.unused ↔ unusedAt f (offAt i) := by
  rw [← unusedAt_congr hf i, ← entryOff_eq hat]
  exact Iff.rfl

/-- An entry that the scan reads and passes over. -/
def Skipped (block : Nat → Option (Nat → Byte)) (i : Nat) : Prop :=
  ∃ f, block (i / 16) = some f ∧ unusedAt f (offAt i)

theorem findFrom_skipped (name : List Byte) {block : Nat → Option (Nat → Byte)} {i j last : Nat}
    (hij : i ≤ j) (hlast : j ≤ last) (h : ∀ k, i ≤ k → k < j → Skipped block k) :
    findFrom name block (last - i) i = findFrom name block (last - j) j := by
  induction j, hij using Nat.le_induction with
  | base => rfl
  | succ j hij ih =>
      obtain ⟨f, hblock, hunused⟩ := h j hij (Nat.lt_succ_self j)
      have hleft : last - j = last - (j + 1) + 1 := by omega
      rw [ih (by omega) fun k hik hkj => h k hik (by omega), hleft,
        findFrom_next hblock fun hm => hm.1 hunused]

/-- How the loop of `fat_next` ends: behind the last entry, at a block that
cannot be read, or at an entry in use. -/
inductive ScanEnds (block : Nat → Option (Nat → Byte)) (i last : Nat) : Int → Volume → Prop
  | exhausted {v : Volume} : (∀ k, i ≤ k → k < last → Skipped block k) →
      ScanEnds block i last (-1) v
  | unread {v : Volume} {j : Nat} : i ≤ j → j < last → (∀ k, i ≤ k → k < j → Skipped block k) →
      block (j / 16) = none → ScanEnds block i last (-2) v
  | found {v : Volume} {j : Nat} : i ≤ j → j < last → (∀ k, i ≤ k → k < j → Skipped block k) →
      v.dirOffset.toNat = j → Searching block v j → v.hit 0 (rootOffset j) → ¬v.unused →
      ScanEnds block i last j v

theorem ScanEnds.skip {block : Nat → Option (Nat → Byte)} {i last : Nat} {r : Int} {v : Volume}
    (hi : Skipped block i) (h : ScanEnds block (i + 1) last r v) : ScanEnds block i last r v := by
  have hmore {j : Nat} (hskip : ∀ k, i + 1 ≤ k → k < j → Skipped block k) :
      ∀ k, i ≤ k → k < j → Skipped block k := by
    intro k hik hkj
    rcases Nat.eq_or_lt_of_le hik with rfl | hlt
    · exact hi
    · exact hskip k hlt hkj
  cases h with
  | exhausted hskip => exact .exhausted (hmore hskip)
  | unread hij hlast hskip hnone => exact .unread (Nat.le_of_succ_le hij) hlast (hmore hskip) hnone
  | found hij hlast hskip hat hsearch hhit hused =>
      exact .found (Nat.le_of_succ_le hij) hlast (hmore hskip) hat hsearch hhit hused

theorem nextLoop_scan (fuel left : Nat) {block : Nat → Option (Nat → Byte)} {i : Nat}
    {v : Volume} (h : Searching block v i) (hat : v.dirOffset.toNat = i)
    (hlast : i + left < 2 ^ 16) :
    ∃ r v', nextLoop fuel left v = some (r, v') ∧ ScanEnds block i (i + left) r v' := by
  induction left generalizing v i with
  | zero => exact ⟨-1, v, rfl, .exhausted fun k hik hki => absurd hki (by omega)⟩
  | succ left ih =>
      obtain ⟨r, u, hask, hasked⟩ := h.request (by omega) fuel
      have hu : u.dirOffset.toNat = i := by
        rw [fetchCluster_dirOffset hask]
        exact hat
      have hnothing : ∀ k, i ≤ k → k < i → Skipped block k := fun k hik hki => absurd hki (by omega)
      rw [nextLoop_run, h.dir, dirOffset_rootOffset hat, hask, Option.bind_some]
      rcases hasked with ⟨hneg, hnone⟩ | ⟨rfl, hsearch, hhit⟩
      · rw [if_pos hneg]
        exact ⟨-2, u, rfl, .unread le_rfl (by omega) hnothing hnone⟩
      · obtain ⟨f, hblock, hf⟩ := hsearch.held hhit
        rw [if_neg (lt_irrefl 0)]
        by_cases hunused : u.unused
        · have hat' : (u.dirOffset + 1).toNat = i + 1 := toNat_add_one hu (by omega)
          obtain ⟨r, v', hrun, hends⟩ :=
            ih (hsearch.next hhit (by omega) (u.dirOffset + 1)) hat' (by omega)
          rw [Nat.add_right_comm] at hends
          rw [if_pos hunused]
          exact ⟨r, v', hrun, hends.skip ⟨f, hblock, (unused_iff hu hf).mp hunused⟩⟩
        · rw [if_neg hunused]
          exact ⟨_, u, rfl, hat ▸ .found (hat ▸ le_rfl) (by omega) (hat ▸ hnothing) (hat ▸ hu)
            (hat ▸ hsearch) (hat ▸ hhit) hunused⟩

theorem nextLoop_search (fuel left : Nat) {block : Nat → Option (Nat → Byte)} {i : Nat}
    {v : Volume} (h : Searching block v i) (hat : v.dirOffset.toNat = i)
    (hlast : i + left < 2 ^ 16) :
    ∃ r v', nextLoop fuel left v = some (r, v')
      ∧ (r < 0 ∧ (∀ name, findFrom name block left i = none)
        ∨ ¬r < 0 ∧ ∃ j, Stopped block v' i (i + left) j) := by
  obtain ⟨r, v', hrun, hends⟩ := nextLoop_scan fuel left h hat hlast
  have hleft : i + left - i = left := Nat.add_sub_cancel_left i left
  refine ⟨r, v', hrun, ?_⟩
  cases hends with
  | exhausted hskip =>
      refine .inl ⟨by decide, fun name => ?_⟩
      rw [← hleft, findFrom_skipped name (Nat.le_add_right i left) le_rfl hskip, Nat.sub_self]
      rfl
  | @unread _ j hij hjl hskip hnone =>
      refine .inl ⟨by decide, fun name => ?_⟩
      obtain ⟨more, hmore⟩ : ∃ more, i + left - j = more + 1 :=
        Nat.exists_eq_succ_of_ne_zero (by omega)
      rw [← hleft, findFrom_skipped name hij hjl.le hskip, hmore, findFrom_unread hnone]
  | @found _ j hij hjl hskip hat' hsearch hhit hused =>
      exact .inr ⟨not_lt.mpr (Int.natCast_nonneg j), j, hij, hjl, hat', hsearch, hhit, hused,
        fun name => findFrom_skipped name hij hjl.le hskip⟩

end Fat

/-! ## `mount` in the root directory -/

namespace Machine

open Fat (Volume Searching findFrom fatNext)

/-- What is mounted is the file that was found. -/
def Mounts : Option (Word × ULong) → State → Prop
  | none, t => t.sdFat = 0
  | some (cluster, size), t =>
    t.sdFat = 1 ∧ t.volume.fileCluster = cluster ∧ t.volume.fileSize = size

/-- An entry of another name. -/
theorem mountLoop_other {fuel left : Nat} {name : List Byte} {s : State} {v : Volume} {r : Int}
    (hnext : fatNext fuel s.volume = some (r, v)) (hr : ¬r < 0)
    (hname : strdcmp name v.entryName 0 ≠ 0) :
    mountLoop fuel name (left + 1) s = mountLoop fuel name left { s with volume := v } := by
  have hread := onVolume_of_run (s := { s with volume := v }) (Fat.fatName_run v)
  rw [mountLoop, Prog.bind_of_run (onVolume_of_run hnext), Prog.ite_run, if_neg hr,
    Prog.bind_of_run hread, Prog.ite_run, if_pos hname]

theorem mountLoop_search (fuel : Nat) (name : List Byte) {block : Nat → Option (Nat → Byte)}
    {left i : Nat} {s : State}
    (h : Searching block { s.volume with dirOffset := s.volume.dirOffset + 1 } i)
    (hat : (s.volume.dirOffset + 1).toNat = i) (hi : i ≤ s.volume.dirEntries.toNat)
    (hleft : s.volume.dirEntries.toNat - i < left) :
    ∃ t, mountLoop fuel name left s = some ((), t)
      ∧ Mounts (findFrom name block (s.volume.dirEntries.toNat - i) i) t := by
  induction left generalizing s i with
  | zero => omega
  | succ left ih =>
      have hentries := s.volume.dirEntries.isLt
      obtain ⟨r, v, hrun, hend⟩ :=
        Fat.nextLoop_search fuel (s.volume.dirEntries.toNat - i) h hat (by omega)
      have hnext : fatNext fuel s.volume = some (r, v) := by
        rw [fatNext, Prog.modify_bind_run, Prog.get_bind_run, ← hrun, ← hat]
      rcases hend with ⟨hneg, hnone⟩ | ⟨hpos, j, hstop⟩
      · obtain ⟨console, hmissing⟩ := mountLoop_missing left name hnext hneg
        refine ⟨_, hmissing, ?_⟩
        rw [hnone name]
        rfl
      · have hgeo := (Fat.fatNext_wandered hnext).1.geometry
        obtain ⟨f, hblock, hf⟩ := hstop.searching.held hstop.hit
        have hlast : i + (s.volume.dirEntries.toNat - i) = s.volume.dirEntries.toNat := by omega
        rw [hlast] at hstop
        have hj := hstop.lt
        have hoff := Fat.entryOff_eq hstop.at_entry
        have hused : ¬Fat.unusedAt f (Fat.offAt j) :=
          mt (Fat.unused_iff hstop.at_entry hf).mpr hstop.used
        have hname : v.entryName = Fat.nameAt f (Fat.offAt j) 11 0 := by
          rw [Volume.entryName, hoff, Fat.nameAt_congr hf j 11 0 (by decide)]
        obtain ⟨more, hmore⟩ : ∃ more, s.volume.dirEntries.toNat - j = more + 1 :=
          Nat.exists_eq_succ_of_ne_zero (by omega)
        rw [hstop.passed name, hmore]
        by_cases hmatch : Fat.matchAt name f j
        · obtain ⟨console, hfound⟩ := mountLoop_found left name hnext hpos
            (hname ▸ hmatch.2)
          refine ⟨_, hfound, ?_⟩
          rw [Fat.findFrom_found hblock hmatch]
          refine ⟨rfl, ?_, ?_⟩
          · show Fat.clusterAt v.card.buffer v.entryOff = _
            rw [hoff, Fat.clusterAt_congr hf j]
          · show Fat.sizeAt v.card.buffer v.entryOff = _
            rw [hoff, Fat.sizeAt_congr hf j]
        · have hother : strdcmp name v.entryName 0 ≠ 0 := fun h => hmatch ⟨hused, hname ▸ h⟩
          have hat' : (v.dirOffset + 1).toNat = j + 1 := toNat_add_one hstop.at_entry (by omega)
          have hentries' : ({ s with volume := v } : State).volume.dirEntries.toNat
              = s.volume.dirEntries.toNat := congrArg (fun g => g.dirEntries.toNat) hgeo
          have hrest := hstop.searching.next hstop.hit (by omega) (v.dirOffset + 1)
          have hleft' : s.volume.dirEntries.toNat - (j + 1) = more := by omega
          have hi' := hstop.from_le
          rw [mountLoop_other hnext hpos hother, Fat.findFrom_next hblock hmatch, ← hleft',
            ← hentries']
          exact ih (s := { s with volume := v }) hrest hat' (by omega) (by omega)

/-- `mount` in the root directory finds what the scan finds. -/
theorem mount_root (fuel : Nat) (name : List Byte) {block : Nat → Option (Nat → Byte)} {s : State}
    (h : Searching block { s.volume with dirOffset := 0 } 0) :
    ∃ t, mount fuel name s = some ((), t)
      ∧ Mounts (findFrom name block s.volume.dirEntries.toNat 0) t := by
  obtain ⟨console, hrun⟩ := mount_run fuel name s
  have hfirst : (0xffff : Word) + 1 = 0 := by decide
  generalize hw : ({ s with
    volume := { s.volume with dirOffset := 0xffff }, console := console } : State) = w at hrun
  have hentries : w.volume.dirEntries = s.volume.dirEntries := hw ▸ rfl
  have hoffset : w.volume.dirOffset + 1 = 0 := by
    rw [← hw]
    exact hfirst
  have hsearch : Searching block { w.volume with dirOffset := w.volume.dirOffset + 1 } 0 := by
    rw [hoffset, ← hw]
    exact h
  obtain ⟨t, ht, hmounts⟩ := mountLoop_search fuel name hsearch
    (congrArg BitVec.toNat hoffset) (Nat.zero_le _) (Nat.lt_succ_self _)
  rw [hentries, Nat.sub_zero] at hmounts
  rw [hentries, Nat.sub_zero] at ht
  exact ⟨t, hrun.trans ht, hmounts⟩

end Machine

end CpMega88
