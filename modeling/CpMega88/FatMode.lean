import CpMega88.ResetMount
import CpMega88.Survival

/-!
# Entering FAT mode

`machine_boot` keeps the result of `fat_init` in a signed byte and goes
into FAT mode if that is not negative. The result for a partition of
another type is `-80 - fs_desc`, with the type as a signed byte as well,
so that for 128 of the types it comes out positive. `fat_mode_iff`: the
mode is the one the card calls for if and only if the type is none of
those, and `fat_init` returns at all.
-/

namespace CpMega88

open Bytes Sdcard

namespace Machine

open Fat (InitEnds BootRead Signed bytes2 bootSector fatInit Volume)

/-- What `fat_init` looks for: both signatures, a first partition of type
4 or 6, and 512 bytes in a sector. -/
structure FoundFat16 (card : Card) : Prop extends BootRead card where
  sectorBytes : bytes2 (bootSector card.image) 11 = 512

/-- A partition table can be read whose first entry has one of the types
that come out positive. -/
structure Folds (card : Card) : Prop where
  table : FetchOk card 0
  signed : Signed (card.image.block 0)
  least : 49 ≤ (card.image.block 0 450).toNat
  most : (card.image.block 0 450).toNat ≤ 176

/-- The error for another type, cut to a signed byte. -/
theorem folded_iff (kind : Byte) :
    0 ≤ (BitVec.ofInt 8 (-80 - kind.toInt) : Byte).toInt ↔ 49 ≤ kind.toNat ∧ kind.toNat ≤ 176 := by
  have hlt := kind.isLt
  rw [BitVec.toInt_ofInt, BitVec.toInt_eq_toNat_cond]
  simp only [Int.bmod]
  split <;> omega

/-- The mode after a result of `fat_init`. -/
theorem openFat_mode {s : State} {v : Volume} {r : Int} (h : fatInit s.volume = some (r, v)) :
    ∃ console, openFat s = some ((), { s with
      volume := v
      console := console
      sdFat := if 0 ≤ (BitVec.ofInt 8 r : Byte).toInt then 1 else 0 }) := by
  rw [openFat, Prog.bind_of_run (onVolume_of_run h), Prog.bind_of_run (puts_run _ _), Prog.ite_run]
  by_cases hpos : 0 ≤ (BitVec.ofInt 8 r : Byte).toInt
  · rw [if_pos hpos, if_pos hpos, Prog.ite_run, Prog.ite_run]
    split_ifs
    · exact ⟨_, rfl⟩
    · exact ⟨_, rfl⟩
    · exact ⟨_, rfl⟩
  · rw [if_neg hpos, if_neg hpos]
    exact ⟨_, rfl⟩

theorem Folds.otherKind {card : Card} (h : Folds card) :
    ¬(card.image.block 0 450 = 4 ∨ card.image.block 0 450 = 6) := by
  have hleast := h.least
  rintro (h4 | h6)
  · rw [h4] at hleast
    exact absurd hleast (by decide)
  · rw [h6] at hleast
    exact absurd hleast (by decide)

/-- What `fat_init` returns is not negative for a FAT16 volume, and for a
type that comes out positive. -/
theorem result_nonneg_iff {card : Card} {r : Int} (h : InitEnds card (some r)) :
    0 ≤ (BitVec.ofInt 8 r : Byte).toInt ↔ FoundFat16 card ∨ Folds card := by
  cases h with
  | tableUnread hno =>
      refine iff_of_false (by decide) ?_
      rintro (hfound | hfolds)
      · exact hno hfound.table
      · exact hno hfolds.table
  | tableUnsigned htable hno =>
      refine iff_of_false (by decide) ?_
      rintro (hfound | hfolds)
      · exact hno hfound.signed
      · exact hno hfolds.signed
  | otherKind htable hsigned hkind =>
      rw [folded_iff]
      constructor
      · rintro ⟨hleast, hmost⟩
        exact .inr ⟨htable, hsigned, hleast, hmost⟩
      · rintro (hfound | hfolds)
        · exact absurd hfound.kind hkind
        · exact ⟨hfolds.least, hfolds.most⟩
  | bootUnread hpart hno =>
      refine iff_of_false (by decide) ?_
      rintro (hfound | hfolds)
      · exact hno hfound.boot
      · exact hfolds.otherKind hpart.kind
  | bootUnsigned hpart _ hno =>
      refine iff_of_false (by decide) ?_
      rintro (hfound | hfolds)
      · exact hno hfound.bootSigned
      · exact hfolds.otherKind hpart.kind
  | otherSectors hread _ hno =>
      refine iff_of_false (by decide) ?_
      rintro (hfound | hfolds)
      · exact hno hfound.sectorBytes
      · exact hfolds.otherKind hread.kind
  | fat16 hread _ hbytes =>
      refine iff_of_true ?_ (.inl ⟨hread, hbytes⟩)
      rcases hread.kind with h4 | h6
      · rw [h4]
        decide
      · rw [h6]
        decide

/-- `machine_boot` goes into FAT mode exactly for a FAT16 volume, if and
only if the first partition has no type that comes out positive, and the
boot sector does not stop `fat_init`. -/
theorem fat_mode_iff (s : State) :
    (∃ t, openFat s = some ((), t) ∧ (FoundFat16 s.card → t.sdFat = 1)
        ∧ (¬FoundFat16 s.card → t.sdFat = 0))
      ↔ ¬Folds s.card ∧ ¬(BootRead s.card ∧ bootSector s.card.image 13 = 0) := by
  have hends := Fat.fatInit_ends s.volume
  cases hinit : fatInit s.volume with
  | none =>
      refine iff_of_false ?_ fun h => h.2 ((Fat.fatInit_traps_iff s.volume).mp hinit)
      rintro ⟨t, ht, -⟩
      have hnone : onVolume fatInit s = none := by rw [onVolume, hinit]; rfl
      rw [openFat, Prog.bind_run, hnone] at ht
      cases ht
  | some p =>
      obtain ⟨r, v⟩ := p
      rw [hinit] at hends
      have hmode := result_nonneg_iff hends
      obtain ⟨console, hrun⟩ := openFat_mode hinit
      have hreturns : ¬(BootRead s.card ∧ bootSector s.card.image 13 = 0) := by
        intro htraps
        rw [(Fat.fatInit_traps_iff s.volume).mpr htraps] at hinit
        cases hinit
      rw [and_iff_left hreturns]
      constructor
      · rintro ⟨t, ht, -, hraw⟩ hfolds
        cases hrun.symm.trans ht
        have hzero := hraw fun hfound => hfolds.otherKind hfound.kind
        rw [if_pos (hmode.mpr (.inr hfolds))] at hzero
        have hone : ¬(1 : Byte) = 0 := by decide
        exact hone hzero
      · intro hno
        refine ⟨_, hrun, fun hfound => if_pos (hmode.mpr (.inl hfound)), fun hother => if_neg ?_⟩
        rw [hmode]
        rintro (hfound | hfolds)
        · exact hother hfound
        · exact hno hfolds

/-! ## A Linux partition -/

/-- The volume of `blankImage`, in a partition of type 83h. -/
def linuxImage : Sdcard.Image :=
  { Fat.blankImage with byte := Function.update Fat.blankImage.byte 450 0x83 }

def linuxStart : State := State.initial { Fat.blankCard [] with image := linuxImage }

/-- `machine_boot` comes to the monitor in FAT mode, without a volume. -/
theorem linux_fat_mode : ∃ t, startup 129 linuxStart = some (false, t)
    ∧ t.sdFat = 1 ∧ ∀ card, card.image = linuxImage → ¬FoundFat16 card := by
  have hholds : linuxStart.card.image.Holds 0 := ⟨by decide, by decide, by decide⟩
  have hkind : linuxImage.block 0 450 = 0x83 := by decide
  have hother (card : Card) (himage : card.image = linuxImage) : ¬FoundFat16 card := by
    intro hfound
    have h := hfound.kind
    rw [himage, hkind] at h
    exact absurd h (by decide)
  have hrest (t : State) (hvolume : t.volume = linuxStart.tested)
      (hrom : t.eeprom = linuxStart.eeprom) :
      ∃ b u, (do openFat; configure 129) t = some (b, u) ∧ b = false ∧ u.sdFat = 1 := by
    obtain ⟨r, v, hinit, hr⟩ : ∃ r v, fatInit t.volume = some (r, v)
        ∧ 0 ≤ (BitVec.ofInt 8 r : Byte).toInt := by
      rw [hvolume]
      exact ⟨_, _, rfl, by decide⟩
    obtain ⟨console, hrun⟩ := openFat_mode hinit
    rw [if_pos hr] at hrun
    obtain ⟨u, hu, -, hmode⟩ := configure_blank (u := { t with
      volume := v, console := console, sdFat := 1 }) (by rw [hrom]; decide) 129
    exact ⟨false, u, (Prog.bind_of_run hrun _).trans hu, rfl, hmode⟩
  obtain ⟨b, t, ht, rfl, hmode⟩ :=
    startup_tested (r := linuxStart) (by decide) hholds (by decide) rfl hrest
  exact ⟨t, ht, hmode, hother⟩

end Machine

end CpMega88
