import CpMega88.BootVolume
import CpMega88.Lib.Fuel
import CpMega88.RawDisk

/-!
# Calls that do not return

Two things keep a call into the file system from returning, whatever is on
the card: `fat_init` divides by the sectors per cluster of the boot
sector, which it does not check, and the loop of `fetch_cluster` makes no
progress where a cluster has no bytes and the chain no end (`Trapped`).
As long as there is no geometry there are no directory entries either, so
that only `fat_read` comes to such a loop. `calls_return_iff`: a run of
calls returns if and only if neither is met.
-/

namespace CpMega88

open Bytes Sdcard Prog

namespace Fat

/-! ## The loop of `fetch_cluster` -/

theorem fetchOk_iff (card : Card) (blkAddr : ULong) : FetchOk card blkAddr
    ↔ card.fp ≠ none ∧ card.fault.Passes 512 ∧ card.image.Holds blkAddr := by
  constructor
  · intro h
    have hholds := h.holds
    have hall := (fetchOk_iff_delivered card blkAddr).mp h
    rw [le_delivered le_rfl (by decide) hholds.aligned hholds.seeks] at hall
    exact ⟨hall.1, hall.2.1, hholds⟩
  · rintro ⟨hfp, hpasses, haligned, hseeks, hinside⟩
    rw [fetchOk_iff_delivered, le_delivered le_rfl (by decide) haligned hseeks]
    exact ⟨hfp, hpasses, hinside⟩

/-- The loop does not end. -/
def Stuck (c : Word) (o : ULong) (v : Volume) : Prop := ¬Halts (fun fuel => walk fuel c o) v

/-- A turn that goes on. -/
theorem walk_turn {c : Word} {o : ULong} {v : Volume} (hgo : v.clusterBytes < o)
    (hfetch : FetchOk v.card (v.fatBlock c)) (hlink : IsLink (v.entry v.card.image c))
    (fuel : Nat) : walk (fuel + 1) c o v = walk fuel (v.entry v.card.image c)
      (o - v.clusterBytes) (v.withCard (v.card.loaded (v.fatBlock c))) := by
  obtain ⟨hat, hfound⟩ := atEntry_ok hfetch
  have hpos : ¬(fetch (v.fatBlock c) v.card).1 < 0 := by
    rw [fetch_ok hfetch]
    exact lt_irrefl 0
  rw [walk_run, if_pos hgo, if_neg hpos, hfound, if_neg ((isLink_iff _).mp hlink), hat]

theorem stuck_iff (c : Word) (o : ULong) (v : Volume) : Stuck c o v
    ↔ v.clusterBytes < o ∧ FetchOk v.card (v.fatBlock c) ∧ IsLink (v.entry v.card.image c)
      ∧ Stuck (v.entry v.card.image c) (o - v.clusterBytes)
        (v.withCard (v.card.loaded (v.fatBlock c))) := by
  constructor
  · intro h
    have hone (r) (hrun : walk 1 c o v = some r) : False := h ⟨1, r, hrun⟩
    rw [walk_run] at hone
    have hgo : v.clusterBytes < o := by
      by_contra hno
      exact hone _ (if_neg hno)
    rw [if_pos hgo] at hone
    have hfetch : FetchOk v.card (v.fatBlock c) := by
      by_contra hno
      exact hone _ (if_pos (not_not.mp (mt fetchOk_of_not_neg hno)))
    have hlink : IsLink (v.entry v.card.image c) := by
      have hpos : ¬(fetch (v.fatBlock c) v.card).1 < 0 := by
        rw [fetch_ok hfetch]
        exact lt_irrefl 0
      rw [if_neg hpos, (atEntry_ok hfetch).2] at hone
      by_contra hno
      exact hone _ (if_pos (not_not.mp (mt (isLink_iff _).mpr hno)))
    exact ⟨hgo, hfetch, hlink, fun ⟨fuel, r, hrun⟩ =>
      h ⟨fuel + 1, r, (walk_turn hgo hfetch hlink fuel).trans hrun⟩⟩
  · rintro ⟨hgo, hfetch, hlink, hrest⟩ ⟨fuel, r, hrun⟩
    rcases fuel with _ | fuel
    · cases hrun
    · exact hrest ⟨fuel, r, (walk_turn hgo hfetch hlink fuel).symm.trans hrun⟩

/-- A loop that does not end makes no progress: with clusters of any size
the offset is used up. -/
theorem stuck_clusterBytes {c : Word} {o : ULong} {v : Volume} (h : Stuck c o v) :
    v.clusterBytes = 0 := by
  induction hm : o.toNat using Nat.strong_induction_on generalizing c o v with
  | _ m ih =>
      obtain ⟨hgo, -, -, hrest⟩ := (stuck_iff c o v).mp h
      by_contra hne
      have hlt : v.clusterBytes.toNat < o.toNat := hgo
      have hpos : v.clusterBytes.toNat ≠ 0 := fun h0 => hne (BitVec.eq_of_toNat_eq h0)
      have hsub : (o - v.clusterBytes).toNat = o.toNat - v.clusterBytes.toNat :=
        BitVec.toNat_sub_of_le (BitVec.le_def.mpr hlt.le)
      have hsame := ih (o - v.clusterBytes).toNat (by omega) hrest rfl
      exact hne hsame

/-- Every entry of the chain from a cluster can be read, and is a link. -/
def Geometry.Endless (g : Geometry) (image : Image) (c : Word) : Prop :=
  ∀ n, image.Holds (g.fatBlock ((g.entry image)^[n] c)) ∧ IsLink ((g.entry image)^[n + 1] c)

theorem Geometry.Endless.next {g : Geometry} {image : Image} {c : Word} (h : g.Endless image c) :
    g.Endless image (g.entry image c) := fun n => h (n + 1)

/-- A loop that does not end goes along the chain for ever. -/
theorem stuck_along {c : Word} {o : ULong} {v : Volume} (h : Stuck c o v) (n : Nat) :
    ∃ card, card.image = v.card.image ∧ card.fp = v.card.fp ∧ card.faults = v.card.faults.drop n
      ∧ Stuck ((v.entry v.card.image)^[n] c) o (v.withCard card) := by
  have hzero := stuck_clusterBytes h
  induction n with
  | zero => exact ⟨v.card, rfl, rfl, rfl, h⟩
  | succ n ih =>
      obtain ⟨card, himage, hfp, hfaults, hstuck⟩ := ih
      obtain ⟨-, -, -, hrest⟩ := (stuck_iff _ _ _).mp hstuck
      have hsame : (v.withCard card).clusterBytes = 0 := hzero
      have himage' : (v.withCard card).card.image = v.card.image := himage
      rw [hsame, sub_zero, himage'] at hrest
      refine ⟨card.loaded (v.fatBlock ((v.entry v.card.image)^[n] c)), himage, hfp, ?_, ?_⟩
      · rw [← List.tail_drop, ← hfaults]
        rfl
      · rw [Function.iterate_succ_apply']
        exact hrest

theorem stuck_of_endless {c : Word} {o : ULong} {v : Volume} (hzero : v.clusterBytes = 0)
    (ho : o ≠ 0) (hfp : v.card.fp ≠ none) (hfaults : ∀ f ∈ v.card.faults, f.Passes 512)
    (hend : v.toGeometry.Endless v.card.image c) : Stuck c o v := by
  rintro ⟨fuel, r, hrun⟩
  induction fuel generalizing c v with
  | zero => cases hrun
  | succ fuel ih =>
      have hpasses : v.card.fault.Passes 512 := by
        rcases hf : v.card.faults with _ | ⟨f, fs⟩
        · rw [fault_of_quiet hf]
          trivial
        · rw [Card.fault, hf]
          exact hfaults f (hf ▸ List.mem_cons_self)
      have hfetch : FetchOk v.card (v.fatBlock c) :=
        (fetchOk_iff _ _).mpr ⟨hfp, hpasses, (hend 0).1⟩
      have hgo : v.clusterBytes < o := by
        rw [hzero]
        exact BitVec.lt_def.mpr (Nat.pos_of_ne_zero fun h0 => ho (BitVec.eq_of_toNat_eq h0))
      have hturn := (walk_turn hgo hfetch (hend 0).2 fuel).symm.trans hrun
      rw [hzero, sub_zero] at hturn
      exact ih (v := v.withCard (v.card.loaded (v.fatBlock c))) hzero hfp
        (fun f hf => hfaults f (List.mem_of_mem_tail hf)) hend.next hturn

theorem clusterBytes_zero_iff (g : Geometry) : g.clusterBytes = 0 ↔ g.sectorsPerCluster = 0 := by
  have hlt := g.sectorsPerCluster.isLt
  rw [← BitVec.toNat_inj, ← BitVec.toNat_inj, Geometry.clusterBytes, BitVec.toNat_shiftLeft,
    BitVec.toNat_setWidth, Nat.shiftLeft_eq]
  simp
  omega

/-- A request that `fetch_cluster` does not come back from. -/
structure Trapped (v : Volume) (c : Word) (o : ULong) : Prop where
  miss : ¬v.hit c o
  data : c ≠ 0
  empty : v.sectorsPerCluster = 0
  inside : o ≠ 0
  opened : v.card.fp ≠ none
  served : ∀ f ∈ v.card.faults, f.Passes 512
  endless : v.toGeometry.Endless v.card.image c

theorem stuck_iff_trapped {v : Volume} {c : Word} {o : ULong} (hmiss : ¬v.hit c o) (hc : c ≠ 0) :
    Stuck c o (v.recorded c o) ↔ Trapped v c o := by
  constructor
  · intro h
    obtain ⟨hgo, hfetch, -⟩ := (stuck_iff _ _ _).mp h
    have hzero := stuck_clusterBytes h
    refine ⟨hmiss, hc, (clusterBytes_zero_iff _).mp hzero, ?_, hfetch.opened, ?_, fun n => ?_⟩
    · rintro rfl
      exact absurd (BitVec.lt_def.mp hgo) (Nat.not_lt_zero _)
    · intro f hf
      obtain ⟨n, hn, rfl⟩ := List.getElem_of_mem hf
      obtain ⟨card, -, -, hfaults, hstuck⟩ := stuck_along h n
      obtain ⟨-, hfetch, -⟩ := (stuck_iff _ _ _).mp hstuck
      have hpasses : card.fault.Passes 512 := ((fetchOk_iff _ _).mp hfetch).2.1
      have hcut : card.faults = v.card.faults.drop n := hfaults
      rwa [Card.fault, hcut, List.drop_eq_getElem_cons hn] at hpasses
    · obtain ⟨card, himage, -, -, hstuck⟩ := stuck_along h n
      obtain ⟨-, hfetch, hlink, -⟩ := (stuck_iff _ _ _).mp hstuck
      have hsame : ((v.recorded c o).withCard card).card.image = v.card.image := himage
      rw [hsame] at hlink
      refine ⟨himage ▸ hfetch.holds, ?_⟩
      rw [Function.iterate_succ_apply']
      exact hlink
  · intro h
    exact stuck_of_endless ((clusterBytes_zero_iff _).mpr h.empty) h.inside h.opened h.served
      h.endless

theorem fetchCluster_halts_iff (v : Volume) (c : Word) (o : ULong) :
    Halts (fun fuel => fetchCluster fuel c o) v ↔ ¬Trapped v c o := by
  by_cases hhit : v.hit c o
  · exact iff_of_true ⟨0, _, fetchCluster_hit hhit 0⟩ fun h => h.miss hhit
  by_cases hc : c = 0
  · subst hc
    exact iff_of_true ⟨0, _, fetchCluster_root hhit 0⟩ fun h => h.data rfl
  rw [← stuck_iff_trapped hhit hc, Stuck, not_not]
  constructor
  · rintro ⟨fuel, r, h⟩
    obtain ⟨w, u, hwalk, -⟩ := bind_eq_some.mp ((fetchCluster_data hhit hc fuel).symm.trans h)
    exact ⟨fuel, _, hwalk⟩
  · rintro ⟨fuel, ⟨w, u⟩, hwalk⟩
    rcases w with e | ⟨c', o'⟩
    · exact ⟨fuel, _, (fetchCluster_data hhit hc fuel).trans (bind_of_run hwalk _)⟩
    · exact ⟨fuel, _, (fetchCluster_data hhit hc fuel).trans (bind_of_run hwalk _)⟩

theorem fetchCluster_geometry {fuel : Nat} {c : Word} {o : ULong} {v v' : Volume} {r : Int}
    (h : fetchCluster fuel c o v = some (r, v')) : v'.toGeometry = v.toGeometry := by
  by_cases hhit : v.hit c o
  · rw [fetchCluster_hit hhit] at h
    cases h
    rfl
  · obtain ⟨card, -, rfl⟩ := fetchCluster_moves hhit h
    rfl

/-! ## The calls -/

theorem fatInit_traps_iff (v : Volume) :
    fatInit v = none ↔ BootRead v.card ∧ bootSector v.card.image 13 = 0 := by
  have hends := fatInit_ends v
  constructor
  · intro h
    rw [h] at hends
    cases hends with
    | traps hread hzero => exact ⟨hread, hzero⟩
  · rintro ⟨hread, hzero⟩
    rw [← Option.map_eq_none_iff (f := Prod.fst)]
    generalize Option.map Prod.fst (fatInit v) = r at hends
    cases hends with
    | tableUnread hno => exact absurd hread.table hno
    | tableUnsigned _ hno => exact absurd hread.signed hno
    | otherKind _ _ hno => exact absurd hread.kind hno
    | bootUnread _ hno => exact absurd hread.boot hno
    | bootUnsigned _ _ hno => exact absurd hread.bootSigned hno
    | traps => rfl
    | otherSectors _ hno => exact absurd hzero hno
    | fat16 _ hno => exact absurd hzero hno

theorem nextLoop_fueled (left : Nat) : Fueled fun fuel => nextLoop fuel left := by
  intro m n hle v r h
  dsimp only at h ⊢
  induction left generalizing v with
  | zero => exact h
  | succ left ih =>
      rw [nextLoop_run] at h ⊢
      obtain ⟨u, hfetch, hrest⟩ := Option.bind_eq_some_iff.mp h
      rw [fetchCluster_mono hle hfetch, Option.bind_some]
      split_ifs at hrest ⊢
      · exact hrest
      · exact ih _ hrest
      · exact hrest

/-- Where clusters have a size, the loop of `fat_next` ends. -/
theorem nextLoop_halts (left : Nat) {v : Volume} (h : v.sectorsPerCluster ≠ 0) :
    Halts (fun fuel => nextLoop fuel left) v := by
  induction left generalizing v with
  | zero => exact ⟨0, _, rfl⟩
  | succ left ih =>
      obtain ⟨m, ⟨r, u⟩, hfetch⟩ :=
        (fetchCluster_halts_iff v v.dirCluster (v.dirOffset.setWidth 64 <<< 5)).mpr
          fun htrap => h htrap.empty
      have hu : u.sectorsPerCluster ≠ 0 := by
        rw [fetchCluster_geometry hfetch]
        exact h
      obtain ⟨n, w, hrest⟩ := ih (v := { u with dirOffset := u.dirOffset + 1 }) hu
      have hfetch' := fetchCluster_mono (Nat.le_max_left m n) hfetch
      have hrest' := nextLoop_fueled left (Nat.le_max_right m n) _ w hrest
      have hrun := nextLoop_run (max m n) left v
      rw [hfetch', Option.bind_some] at hrun
      split_ifs at hrun
      · exact ⟨_, _, hrun⟩
      · exact ⟨_, _, hrun.trans hrest'⟩
      · exact ⟨_, _, hrun⟩

/-- Before a boot sector has been read there are no directory entries. -/
def Idle (v : Volume) : Prop := v.sectorsPerCluster = 0 → v.dirEntries = 0

theorem fatNext_halts {v : Volume} (h : Idle v) : Halts (fun fuel => fatNext fuel) v := by
  have hstart (fuel : Nat) : fatNext fuel v
      = nextLoop fuel (v.dirEntries.toNat - (v.dirOffset + 1).toNat)
        { v with dirOffset := v.dirOffset + 1 } := rfl
  by_cases hzero : v.sectorsPerCluster = 0
  · rw [h hzero, show (0 : Word).toNat = 0 from rfl, Nat.zero_sub] at hstart
    exact ⟨0, _, hstart 0⟩
  · obtain ⟨fuel, r, hrun⟩ :=
      nextLoop_halts (v.dirEntries.toNat - (v.dirOffset + 1).toNat)
        (v := { v with dirOffset := v.dirOffset + 1 }) hzero
    exact ⟨fuel, r, (hstart fuel).trans hrun⟩

/-- What is idle stays idle. -/
def KeepsIdle (v v' : Volume) : Prop := Idle v → Idle v'

instance : IsPreorder Volume KeepsIdle where
  refl _ := id
  trans _ _ _ h h' := h' ∘ h

theorem idle_of_geometry {v v' : Volume} (h : v'.toGeometry = v.toGeometry) : KeepsIdle v v' := by
  intro hidle
  rw [Idle, h]
  exact hidle

instance : MayRead KeepsIdle where
  fetch _ _ := idle_of_geometry rfl
  record _ _ _ := idle_of_geometry rfl
  seek _ _ := idle_of_geometry rfl

instance : MayBrowse KeepsIdle := .of_read fun _ _ => idle_of_geometry rfl

instance : MayEnter KeepsIdle := ⟨fun _ _ _ => idle_of_geometry rfl⟩

instance : MayOpen KeepsIdle where
  cluster _ _ := idle_of_geometry rfl
  size _ _ := idle_of_geometry rfl

/-- `fat_init` sets the entries together with the sectors per cluster. -/
theorem fatInit_keepsIdle : Keeps KeepsIdle fatInit :=
  fatInit_keeps fetch_keeps (fun _ _ _ => id)
    (fun _ _ _ _ _ _ _ _ _ hspc _ hzero => absurd hzero hspc) MayEnter.enter

theorem Op.keepsIdle (fuel : Nat) (op : Op) : Keeps KeepsIdle (op.run fuel) := by
  cases op with
  | init => exact .discard fatInit_keepsIdle
  | rewind => exact MayBrowse.rewind
  | next => exact .discard (MayBrowse.next fuel)
  | chdir => exact .discard fatChdir_keeps
  | openFile => exact .discard fatOpen_keeps
  | seek pos => exact .discard (fatSeek_keeps pos)
  | read => exact .discard (fatRead_keeps fuel)
  | fetch blkAddr => exact .discard (fetch_keeps blkAddr)
  | reopen => exact onCard_keeps fun _ => idle_of_geometry rfl

theorem Op.fueled (op : Op) : Fueled fun fuel => op.run fuel := by
  cases op with
  | next =>
      refine Fueled.discard fun m n hle v r h => ?_
      exact nextLoop_fueled _ hle _ r h
  | read =>
      refine Fueled.discard fun m n hle v r h => ?_
      exact fetchCluster_mono hle h
  | _ => exact Fueled.const _

/-! ## Runs of calls -/

/-- What is asked of a call. `fat_init` must not reach a boot sector with
no sectors per cluster, and `fat_read` must not be trapped in the chain of
the open file. -/
def Op.Sound : Op → Volume → Prop
  | .init, v => ¬(BootRead v.card ∧ bootSector v.card.image 13 = 0)
  | .read, v => ¬Trapped v v.fileCluster v.fileOffset
  | _, _ => True

theorem Op.halts_iff (op : Op) {v : Volume} (h : Idle v) :
    Halts (fun fuel => op.run fuel) v ↔ op.Sound v := by
  cases op with
  | init =>
      refine halts_discard.trans (halts_const.trans ?_)
      rw [← Option.isSome_iff_exists, ← Option.ne_none_iff_isSome, Ne, fatInit_traps_iff]
      exact Iff.rfl
  | next => exact iff_of_true (halts_discard.mpr (fatNext_halts h)) trivial
  | read => exact halts_discard.trans (fetchCluster_halts_iff v v.fileCluster v.fileOffset)
  | openFile => exact iff_of_true (halts_discard.mpr (halts_const.mpr ⟨_, fatOpen_run v⟩)) trivial
  | seek pos =>
      exact iff_of_true (halts_discard.mpr (halts_const.mpr ⟨_, fatSeek_run pos v⟩)) trivial
  | _ => exact iff_of_true (halts_const.mpr ⟨_, rfl⟩) trivial

/-- From the state before the first call, over any card, a run of calls
returns if and only if every call is a sound one. -/
theorem calls_return_iff (card : Card) (ops : List Op) :
    (∃ fuel v, runAll (Op.run fuel) ops (Volume.initial card) = some ((), v))
      ↔ ∀ fuel, AlongAll (Op.run fuel) Op.Sound ops (Volume.initial card) := by
  have hidle : Idle (Volume.initial card) := fun _ => rfl
  have hhalts : (∃ fuel v, runAll (Op.run fuel) ops (Volume.initial card) = some ((), v))
      ↔ Halts (fun fuel => runAll (Op.run fuel) ops) (Volume.initial card) :=
    exists_congr fun fuel => ⟨fun ⟨v, h⟩ => ⟨_, h⟩, fun ⟨⟨_, v⟩, h⟩ => ⟨v, h⟩⟩
  rw [hhalts, halts_runAll_iff Op.fueled]
  refine forall_congr' fun fuel => ?_
  exact alongAll_congr (fun op v hv => op.halts_iff hv)
    (fun op v v' hv hrun => Op.keepsIdle fuel op v () v' hrun hv) hidle

/-! ## Two cards -/

/-- The volume of `blankImage`, with no sectors per cluster. -/
def zeroImage : Image := { blankImage with byte := Function.update blankImage.byte 525 0 }

/-- No partition table at all; taken for a directory, its first entry is a
file of 1024 bytes from cluster 2 on, and taken for a FAT it has cluster 2
followed by cluster 2. -/
def loopImage : Image where
  len := 8 * 512
  byte := fun i => match i with
    | 4 => 2
    | 26 => 2
    | 29 => 4
    | _ => 0

def zeroVolume : Volume := Volume.initial { blankCard [] with image := zeroImage }

def loopVolume : Volume := Volume.initial { blankCard [] with image := loopImage }

/-- The state once `fat_init` has failed and the file is open at 600. -/
def loopOpened : Volume :=
  { loopVolume with
    card := loopVolume.card.loaded 0, fileCluster := 2, fileSize := 1024, fileOffset := 600 }

theorem loopOpened_trapped : Trapped loopOpened 2 600 where
  miss := by decide
  data := by decide
  empty := rfl
  inside := by decide
  opened := by decide
  served _ hf := absurd hf List.not_mem_nil
  endless n := by
    have hentry : loopOpened.entry loopImage 2 = 2 := by decide +kernel
    have hfixed (k : Nat) : (loopOpened.entry loopImage)^[k] 2 = 2 :=
      Function.iterate_fixed hentry k
    have hholds : loopImage.Holds (loopOpened.fatBlock 2) :=
      ⟨by decide +kernel, by decide +kernel, by decide +kernel⟩
    exact ⟨(hfixed n).symm ▸ hholds, (hfixed (n + 1)).symm ▸ by decide⟩

/-- `fat_init` divides by zero on the one, `fat_read` goes round for ever
on the other. -/
theorem calls_hang : (¬∃ fuel v, runAll (Op.run fuel) [.init] zeroVolume = some ((), v))
    ∧ ¬∃ fuel v, runAll (Op.run fuel) [.init, .openFile, .seek 600, .read] loopVolume
      = some ((), v) := by
  constructor
  · rintro ⟨fuel, v, hrun⟩
    have hinit := ((halts_runAll_iff Op.fueled _ _).mp ⟨fuel, _, hrun⟩ 0).1
    obtain ⟨r, hr⟩ := halts_const.mp (halts_discard.mp hinit)
    have htraps : (fatInit zeroVolume).isNone := by decide +kernel
    rw [hr] at htraps
    cases htraps
  · rintro ⟨fuel, v, hrun⟩
    obtain ⟨-, hopen⟩ := (halts_runAll_iff Op.fueled _ _).mp ⟨fuel, _, hrun⟩ 0
    have hinit : Op.run 0 .init loopVolume
        = some ((), loopVolume.withCard (loopVolume.card.loaded 0)) := rfl
    obtain ⟨-, hseek⟩ := hopen _ hinit
    obtain ⟨-, hread⟩ := hseek { loopVolume with
      card := loopVolume.card.loaded 0, fileCluster := 2, fileSize := 1024 } rfl
    have hstuck := (hread loopOpened rfl).1
    exact (fetchCluster_halts_iff loopOpened 2 600).mp (halts_discard.mp hstuck)
      loopOpened_trapped

end Fat

end CpMega88
