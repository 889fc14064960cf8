import CpMega88.ResetMount
import Mathlib.Data.List.Forall2

/-!
# Listing the root directory

`ls`, `cd` and `mount` call `fat_next` until it returns a negative value.
`listing_complete`: from the beginning of the root directory this finds
every entry in use, in the order of the entries, and each time the entry
is in the buffer where `fat_attr`, `fat_name` and the others look for it.

The index begins at FFFFh, so that the first call comes to entry 0, and
there may be as many as FFFFh entries.
-/

namespace CpMega88

open Bytes Sdcard

namespace Fat

/-! ## Entries -/

/-- A byte of an entry of the root directory, on the card. -/
def Geometry.entryByte (g : Geometry) (image : Image) (i k : Nat) : Byte :=
  image.byte ((g.rootAddr (i / 16)).toNat + (i % 16 * 32 + k))

/-- The entry is in use: it is neither free nor deleted, and no part of a
long name. -/
def Geometry.Live (g : Geometry) (image : Image) (i : Nat) : Prop :=
  g.entryByte image i 0 ≠ 0 ∧ g.entryByte image i 0 &&& 0x80#8 = 0 ∧ g.entryByte image i 11 ≠ 0x0f#8

instance (g : Geometry) (image : Image) : DecidablePred (g.Live image) :=
  fun _ => inferInstanceAs (Decidable (_ ∧ _ ∧ _))

/-- The entries in use from entry `i` on, in order. -/
def Geometry.liveFrom (g : Geometry) (image : Image) (i : Nat) : List Nat :=
  (List.range' i (g.dirEntries.toNat - i)).filter (g.Live image ·)

/-- The entries in use, in order. -/
def Geometry.liveEntries (g : Geometry) (image : Image) : List Nat :=
  (List.range g.dirEntries.toNat).filter (g.Live image ·)

theorem liveFrom_zero (g : Geometry) (image : Image) :
    g.liveFrom image 0 = g.liveEntries image := by
  rw [Geometry.liveEntries, List.range_eq_range']
  rfl

theorem unusedAt_iff (g : Geometry) (image : Image) (i : Nat) :
    unusedAt (image.block (g.rootAddr (i / 16))) (offAt i) ↔ ¬g.Live image i := by
  have h11 : (offAt i + 11).toNat = i % 16 * 32 + 11 :=
    @toNat_add_ofNat 16 (offAt i) _ 11 (toNat_offAt i) (by omega)
  rw [unusedAt, Geometry.Live, h11, toNat_offAt]
  simp only [Image.block, Geometry.entryByte, Nat.add_zero]
  tauto

/-- `fat_next` until it returns a negative value, in at most `calls`
calls: what the calls before that have returned, and left behind. -/
def nexts (fuel : Nat) : Nat → FatM (List (Int × Volume))
  | 0 => failure
  | calls + 1 => do
    let r ← fatNext fuel
    if r < 0 then return []
    else
      let v ← get
      return (r, v) :: (← nexts fuel calls)

/-- A call has returned entry `i`, and has it in the buffer. -/
structure Shown (g : Geometry) (image : Image) (p : Int × Volume) (i : Nat) : Prop where
  index : p.1 = i
  off : p.2.entryOff.toNat = 32 * (i % 16)
  block : ∀ k < 512, p.2.card.buffer k = image.block (g.rootAddr (i / 16)) k

/-- The root directory can be read from beginning to end. -/
structure RootReads (v : Volume) : Prop where
  opened : v.card.fp ≠ none
  quiet : v.card.faults = []
  blocks : ∀ i < v.dirEntries.toNat, v.card.image.Holds (v.rootAddr (i / 16))

/-! ## One call -/

section Scan

variable {g : Geometry} {image : Image}
  (hblocks : ∀ i < g.dirEntries.toNat, image.Holds (g.rootAddr (i / 16)))

include hblocks

theorem rootBlock_of_lt {i : Nat} (hi : i < g.dirEntries.toNat) :
    rootBlock g image (i / 16) = some (image.block (g.rootAddr (i / 16))) :=
  if_pos (hblocks i hi)

/-- What is passed over is not in use. -/
theorem liveFrom_skipped {i j : Nat} (hij : i ≤ j) (hj : j ≤ g.dirEntries.toNat)
    (h : ∀ k, i ≤ k → k < j → Skipped (rootBlock g image) k) :
    g.liveFrom image i = g.liveFrom image j := by
  induction j, hij using Nat.le_induction with
  | base => rfl
  | succ j hij ih =>
      obtain ⟨f, hblock, hunused⟩ := h j hij (Nat.lt_succ_self j)
      rw [rootBlock_of_lt hblocks (by omega), Option.some.injEq] at hblock
      rw [← hblock, unusedAt_iff] at hunused
      have hleft : g.dirEntries.toNat - j = g.dirEntries.toNat - (j + 1) + 1 := by omega
      rw [ih (by omega) fun k hik hkj => h k hik (by omega), Geometry.liveFrom, hleft,
        List.range'_succ, List.filter_cons_of_neg (by simpa using hunused)]
      rfl

end Scan

theorem liveFrom_live {g : Geometry} {image : Image} {j : Nat} (hj : j < g.dirEntries.toNat)
    (h : g.Live image j) : g.liveFrom image j = j :: g.liveFrom image (j + 1) := by
  have hleft : g.dirEntries.toNat - j = g.dirEntries.toNat - (j + 1) + 1 := by omega
  rw [Geometry.liveFrom, hleft, List.range'_succ, List.filter_cons_of_pos (by simpa using h)]
  rfl

theorem liveFrom_last (g : Geometry) (image : Image) :
    g.liveFrom image g.dirEntries.toNat = [] := by
  rw [Geometry.liveFrom, Nat.sub_self]
  rfl

theorem mem_of_liveFrom {g : Geometry} {image : Image} {i j : Nat} {rest : List Nat}
    (h : g.liveFrom image i = j :: rest) : j ∈ g.liveEntries image := by
  have hmem : j ∈ g.liveFrom image i := h ▸ List.mem_cons_self
  obtain ⟨hrange, hlive⟩ := List.mem_filter.mp hmem
  rw [List.mem_range'_1] at hrange
  exact List.mem_filter.mpr ⟨List.mem_range.mpr (by omega), hlive⟩

/-- The next call of `fat_next` begins at entry `i`. -/
structure Standing (g : Geometry) (image : Image) (v : Volume) (i : Nat) : Prop where
  geometry : v.toGeometry = g
  contents : v.card.image = image
  searching : Searching (rootBlock g image) { v with dirOffset := v.dirOffset + 1 } i
  at_next : (v.dirOffset + 1).toNat = i
  le : i ≤ g.dirEntries.toNat

/-- A call ends behind the last entry, or shows the next one in use. -/
theorem fatNext_shown (fuel : Nat) {g : Geometry} {image : Image}
    (hblocks : ∀ i < g.dirEntries.toNat, image.Holds (g.rootAddr (i / 16))) {i : Nat} {v : Volume}
    (h : Standing g image v i) : ∃ r u, fatNext fuel v = some (r, u)
      ∧ (r < 0 ∧ g.liveFrom image i = []
        ∨ ∃ j, i ≤ j ∧ j < g.dirEntries.toNat ∧ g.liveFrom image i = j :: g.liveFrom image (j + 1)
          ∧ Shown g image (r, u) j ∧ Standing g image u (j + 1)) := by
  obtain ⟨hg, himage, hsearch, hat, hi⟩ := h
  have hentries := g.dirEntries.isLt
  obtain ⟨r, u, hrun, hends⟩ :=
    nextLoop_scan fuel (g.dirEntries.toNat - i) hsearch hat (by omega)
  have hnext : fatNext fuel v = some (r, u) := by
    rw [fatNext, Prog.modify_bind_run, Prog.get_bind_run, ← hrun, ← hat, ← hg]
  have hwandered := (fatNext_wandered hnext).1
  have hlast : i + (g.dirEntries.toNat - i) = g.dirEntries.toNat := by omega
  rw [hlast] at hends
  refine ⟨r, u, hnext, ?_⟩
  cases hends with
  | exhausted hskip =>
      refine .inl ⟨by decide, ?_⟩
      rw [liveFrom_skipped hblocks hi le_rfl hskip, liveFrom_last]
  | @unread _ j _ hjl _ hnone =>
      rw [rootBlock_of_lt hblocks hjl] at hnone
      cases hnone
  | @found _ j hij hjl hskip hat' hsearch' hhit hused =>
      obtain ⟨f, hblock, hf⟩ := hsearch'.held hhit
      rw [rootBlock_of_lt hblocks hjl, Option.some.injEq] at hblock
      subst hblock
      have hlive : g.Live image j := by
        have hunused := mt (unused_iff hat' hf).mpr hused
        rwa [unusedAt_iff, not_not] at hunused
      have hat'' : (u.dirOffset + 1).toNat = j + 1 := toNat_add_one hat' (by omega)
      refine .inr ⟨j, hij, hjl, ?_, ⟨rfl, ?_, hf⟩, ?_⟩
      · rw [liveFrom_skipped hblocks hij hjl.le hskip, liveFrom_live hjl hlive]
      · rw [entryOff_eq hat', toNat_offAt, Nat.mul_comm]
      · exact ⟨hwandered.geometry.trans hg, hwandered.image.trans himage,
          hsearch'.next hhit (by omega) (u.dirOffset + 1), hat'', hjl⟩

/-- The place before the first entry, with nothing on record. -/
theorem rewound_standing {v : Volume} (hrecord : v.lastCluster = 0xffff) (hdir : v.dirCluster = 0)
    (hreads : RootReads v) :
    Standing v.toGeometry v.card.image { v with dirOffset := 0xffff } 0 := by
  have hempty (o : ULong) : ¬v.hit 0 o := by
    rintro ⟨hlast, -⟩
    rw [hrecord] at hlast
    exact absurd hlast (by decide)
  have hfirst : (0xffff : Word) + 1 = 0 := by decide
  refine ⟨rfl, rfl, ?_, congrArg BitVec.toNat hfirst, Nat.zero_le _⟩
  dsimp only
  rw [hfirst]
  exact ⟨hreads.opened, hreads.quiet, hdir, fun hhit => absurd hhit (hempty _), fun _ => rfl,
    fun _ _ => rfl⟩

/-! ## All calls -/

/-- The calls from entry `i` on. -/
theorem nexts_shown (fuel : Nat) {g : Geometry} {image : Image}
    (hblocks : ∀ i < g.dirEntries.toNat, image.Holds (g.rootAddr (i / 16))) {calls i : Nat}
    {v : Volume} (h : Standing g image v i) (hcalls : g.dirEntries.toNat - i < calls) :
    ∃ seen v', nexts fuel calls v = some (seen, v')
      ∧ List.Forall₂ (Shown g image) seen (g.liveFrom image i) := by
  induction calls generalizing v i with
  | zero => omega
  | succ calls ih =>
      obtain ⟨r, u, hnext, hcall⟩ := fatNext_shown fuel hblocks h
      rw [nexts, Prog.bind_of_run hnext, Prog.ite_run]
      rcases hcall with ⟨hneg, hnone⟩ | ⟨j, hij, hjl, hlive, hshown, hstand⟩
      · rw [if_pos hneg, hnone]
        exact ⟨[], u, rfl, .nil⟩
      · obtain ⟨seen, v', hrest, hall⟩ := ih hstand (by omega)
        have hpos : ¬r < 0 := by
          have hindex : r = j := hshown.index
          omega
        refine ⟨(r, u) :: seen, v', ?_, hlive ▸ .cons hshown hall⟩
        rw [if_neg hpos, Prog.get_bind_run, Prog.bind_of_run hrest]
        rfl

/-- With nothing on record the calls find every entry of the root
directory that is in use, in order, and end. -/
theorem listing_complete (fuel : Nat) (v : Volume) (hrecord : v.lastCluster = 0xffff)
    (hdir : v.dirCluster = 0) (hreads : RootReads v) :
    ∃ seen v', (do fatRewind; nexts fuel (v.dirEntries.toNat + 1)) v = some (seen, v')
      ∧ List.Forall₂ (Shown v.toGeometry v.card.image) seen
        (v.liveEntries v.card.image) := by
  obtain ⟨seen, v', hrun, hall⟩ := nexts_shown fuel hreads.blocks
    (rewound_standing hrecord hdir hreads) (Nat.lt_succ_self _)
  rw [liveFrom_zero] at hall
  refine ⟨seen, v', ?_, hall⟩
  rw [fatRewind, Prog.modify_bind_run]
  exact hrun

theorem dirVolume_reads : RootReads Machine.dirVolume := by
  have hholds : Machine.dirImage.Holds ((geometry Machine.dirImage).rootAddr 0) := by
    decide +kernel
  refine ⟨by decide, rfl, fun i hi => ?_⟩
  have hblock : i / 16 = 0 := Nat.div_eq_of_lt hi
  rw [hblock]
  exact hholds

/-- Both entries of `dirImage` are found. -/
theorem listing_complete_dir : (geometry Machine.dirImage).liveEntries Machine.dirImage = [0, 1]
    ∧ ∃ seen v', (do fatRewind; nexts 1 17) Machine.dirVolume = some (seen, v')
      ∧ List.Forall₂ (Shown (geometry Machine.dirImage) Machine.dirImage) seen
        ((geometry Machine.dirImage).liveEntries Machine.dirImage) :=
  ⟨by decide +kernel, listing_complete 1 Machine.dirVolume rfl rfl dirVolume_reads⟩

end Fat

end CpMega88
