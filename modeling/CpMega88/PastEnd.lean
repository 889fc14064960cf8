import CpMega88.Isolation

/-!
# Beyond the end of the mounted file

`fat_seek` rejects a position beyond the end and keeps the one before;
`disk_read` does not look at what it returns, and `fat_read` serves the
position that was kept. So a command with such a position works on a
sector that was asked for earlier, and `past_end_iff` says what is left of
the rejection: nothing but what stops a write anyway.

That the command returns rests on the size of a cluster (`Sized`), and
that a write then goes through on the block number of the card, which is
that of a block at any time (`Addressed`).
-/

namespace CpMega88

open Bytes Sdcard

namespace Sdcard

/-- `cur_blk` is the number of a block. -/
def Addressed (card : Card) : Prop :=
  card.curBlk &&& 0x1ff#64 = 0#64 ∧ card.curBlk.toNat < 2 ^ 63

/-- What the operations of the driver keep. -/
structure Orderly (card card' : Card) : Prop where
  addressed : Addressed card → Addressed card'
  quiet : card.faults = [] → card'.faults = []
  fp : card'.fp = card.fp

theorem Orderly.refl (card : Card) : Orderly card card := ⟨id, id, rfl⟩

theorem Orderly.trans {card card' card'' : Card} (h : Orderly card card')
    (h' : Orderly card' card'') : Orderly card card'' :=
  ⟨h'.addressed ∘ h.addressed, h'.quiet ∘ h.quiet, h'.fp.trans h.fp⟩

theorem fetch_orderly (blkAddr : ULong) (card : Card) :
    Orderly card (fetch blkAddr card).2 := by
  rw [fetch_run]
  split_ifs with hfp haligned hseek hwhole
  · exact .refl card
  · exact .refl card
  · exact ⟨id, tail_of_quiet, rfl⟩
  · exact ⟨id, tail_of_quiet, rfl⟩
  · have hnear : blkAddr.toNat < 2 ^ 63 := not_le.mp fun hfar => hseek (.inr hfar)
    exact ⟨fun _ => ⟨not_not.mp haligned, hnear⟩, tail_of_quiet, rfl⟩

theorem store_orderly (blkAddr : ULong) (card : Card) :
    Orderly card (store blkAddr card).2 := by
  rw [store_run]
  split_ifs
  · exact .refl card
  · exact .refl card
  · exact ⟨id, tail_of_quiet, rfl⟩
  · exact ⟨id, tail_of_quiet, rfl⟩
  · exact ⟨id, tail_of_quiet, rfl⟩

/-- With nothing going wrong any more, a store is refused only for lack of
permission. -/
theorem storeOk_addressed {card : Card} (h : Addressed card) (hfp : card.fp = some true)
    (hquiet : card.faults = []) : StoreOk card card.curBlk :=
  .of_none hfp h.1 h.2 (fault_of_quiet hquiet)

end Sdcard

namespace Fat

/-! ## A request returns -/

/-- Every turn of the loop takes a cluster off the offset. -/
theorem walk_returns {fuel : Nat} {c : Word} {o : ULong} {v : Volume} (hspc : v.clusterBytes ≠ 0)
    (hfuel : o.toNat < fuel) : ∃ r v', walk fuel c o v = some (r, v') := by
  induction fuel generalizing c o v with
  | zero => exact absurd hfuel (Nat.not_lt_zero _)
  | succ fuel ih =>
      rw [walk_run]
      by_cases hgo : v.clusterBytes < o
      · rw [if_pos hgo]
        split_ifs with hneg hlink
        · exact ⟨_, _, rfl⟩
        · exact ⟨_, _, rfl⟩
        · have hpos : v.clusterBytes.toNat ≠ 0 := fun h => hspc (BitVec.eq_of_toNat_eq h)
          have hsub : (o - v.clusterBytes).toNat = o.toNat - v.clusterBytes.toNat :=
            BitVec.toNat_sub_of_le (BitVec.le_of_lt hgo)
          rw [BitVec.lt_def] at hgo
          exact ih hspc (by omega)
      · rw [if_neg hgo]
        exact ⟨_, _, rfl⟩

theorem fetchCluster_returns {c : Word} {v : Volume} (h : c = 0 ∨ v.clusterBytes ≠ 0) (o : ULong) :
    ∃ fuel r v', fetchCluster fuel c o v = some (r, v') := by
  by_cases hhit : v.hit c o
  · exact ⟨0, 0, v, fetchCluster_hit hhit 0⟩
  · by_cases hc : c = 0
    · subst hc
      exact ⟨0, _, _, fetchCluster_root hhit 0⟩
    · obtain ⟨r, u, hwalk⟩ := walk_returns (c := c) (v := v.recorded c o) (h.resolve_left hc)
        (Nat.lt_succ_self o.toNat)
      refine ⟨o.toNat + 1, ?_⟩
      rw [fetchCluster_data hhit hc, Prog.bind_of_run hwalk]
      cases r with
      | error e => exact ⟨_, _, rfl⟩
      | ok p => exact ⟨_, _, rfl⟩

end Fat

namespace Machine

open Fat (FatM Volume fatInit fatNext fatName fatOpen fatRewind)

/-! ## The card under the machine -/

def OrderlyRun (s s' : State) : Prop := Orderly s.card s'.card

instance : IsPreorder State OrderlyRun where
  refl s := .refl s.card
  trans _ _ _ := Orderly.trans

theorem orderlyRun_of_card {s s' : State} (h : s'.card = s.card) : OrderlyRun s s' := by
  rw [OrderlyRun, h]
  exact .refl s.card

instance : MayPrint OrderlyRun := ⟨fun _ _ => orderlyRun_of_card rfl⟩

instance : MayHear OrderlyRun := ⟨fun _ _ _ => orderlyRun_of_card rfl⟩

instance : MayPoke OrderlyRun := ⟨fun _ _ => orderlyRun_of_card rfl⟩

instance : MayLatch OrderlyRun := ⟨fun _ _ _ _ _ _ _ _ => orderlyRun_of_card rfl⟩

instance : MayNote OrderlyRun := ⟨fun _ _ => orderlyRun_of_card rfl⟩

instance : MaySet OrderlyRun := ⟨fun _ _ _ => orderlyRun_of_card rfl⟩

instance : MayMount OrderlyRun := ⟨fun _ _ => orderlyRun_of_card rfl⟩

theorem ofVolume_orderly {v v' : Volume} (h : Orderly v.card v'.card) : OfVolume OrderlyRun v v' := by
  rintro s rfl
  exact h

instance : Fat.MayRead (OfVolume OrderlyRun) where
  fetch v blkAddr := ofVolume_orderly (fetch_orderly blkAddr v.card)
  record v _ _ := ofVolume_orderly (.refl v.card)
  seek v _ := ofVolume_orderly (.refl v.card)

instance : Fat.MayWrite (OfVolume OrderlyRun) where
  write _ _ _ := ofVolume_orderly ⟨id, id, rfl⟩
  store v blkAddr := ofVolume_orderly (store_orderly blkAddr v.card)

instance : Fat.MayBrowse (OfVolume OrderlyRun) := .of_read fun v _ => ofVolume_orderly (.refl v.card)

instance : Fat.MayEnter (OfVolume OrderlyRun) := ⟨fun v _ _ => ofVolume_orderly (.refl v.card)⟩

instance : Fat.MayOpen (OfVolume OrderlyRun) where
  cluster v _ := ofVolume_orderly (.refl v.card)
  size v _ := ofVolume_orderly (.refl v.card)

instance : Fat.MayInit (OfVolume OrderlyRun) := ⟨fun v _ => ofVolume_orderly (.refl v.card)⟩

theorem event_orderly (fuel : Nat) (e : Event) : Prog.Keeps OrderlyRun (e.run fuel) := by
  cases e with
  | mount name => exact mount_keeps fuel name
  | cd arg => exact cd_keeps fuel arg
  | ls => exact ls_keeps fuel
  | boot => exact boot_keeps fuel
  | out port val => exact out_keeps fuel port val
  | input port => exact .discard (input_keeps port)
  | poke addr data => exact (sramWrite_returns addr data).keeps

/-! ## Before the command -/

/-- A command or an access, or a change of the write protection. -/
inductive Turn where
  | event (e : Event)
  | wp (arg : List Byte)

def Turn.run (fuel : Nat) : Turn → MachineM Unit
  | .event e => e.run fuel
  | .wp arg => Machine.wp arg

/-- Whatever has been done before, a request returns, and the card knows a
block to write. -/
structure Working (s : State) : Prop where
  sized : Sized s
  addressed : Addressed s.card

theorem turn_working {fuel : Nat} {e : Turn} {s s' : State} (hs : Working s)
    (hrun : e.run fuel s = some ((), s')) : Working s' := by
  cases e with
  | event e =>
      exact ⟨event_sized hs.sized hrun, (event_orderly fuel e s () s' hrun).addressed hs.addressed⟩
  | wp arg =>
      have hfile : SameFile s s' := (wp_returns arg).keeps s () s' hrun
      have hcard : OrderlyRun s s' := (wp_returns arg).keeps s () s' hrun
      exact ⟨hfile.sized hs.sized, hcard.addressed hs.addressed⟩

theorem turns_working {fuel : Nat} {es : List Turn} {s s' : State} (hs : Working s)
    (hrun : Prog.runAll (Turn.run fuel) es s = some ((), s')) : Working s' := by
  induction es generalizing s with
  | nil =>
      cases hrun
      exact hs
  | cons e es ih =>
      obtain ⟨_, t, ht, hrest⟩ := Prog.bind_eq_some.mp hrun
      exact ih (turn_working hs ht) hrest

/-- After `fat_init`, whatever it has found. -/
theorem working_initial {card : Card} {s₀ : State} {r : Int} (hcard : Addressed card)
    (hinit : fatInit (Volume.initial card) = some (r, s₀.volume)) : Working s₀ :=
  have hworks : Orderly card s₀.card :=
    Fat.fatInit_may (Q := OfVolume OrderlyRun) _ r _ hinit (State.initial card) rfl
  ⟨(inv_initial hinit).1.sized, hworks.addressed hcard⟩

theorem Working.clusters {s : State} (h : Working s) (hmode : s.sdFat ≠ 0) :
    s.volume.fileCluster = 0 ∨ s.volume.clusterBytes ≠ 0 := by
  by_cases hfile : s.volume.fileCluster = 0
  · exact .inl hfile
  · refine .inr fun hzero => ?_
    have hpos := (h.sized.formatted ⟨hmode, hfile⟩).clusterBytes_pos
    rw [hzero] at hpos
    exact absurd hpos (by decide)

/-! ## The command -/

theorem sought_past {v : Volume} {pos : ULong} (h : v.fileSize ≤ pos) :
    v.sought pos = v.fileOffset :=
  if_pos h

/-- Beyond the end `disk_read` serves the position before. -/
theorem diskRead_past {fuel : Nat} {s : State} {blk : ULong} {v : Volume} {r : Int}
    (hmode : s.sdFat ≠ 0) (hpast : s.volume.fileSize ≤ blk)
    (hread : Fat.fatRead fuel s.volume = some (r, v)) :
    diskRead fuel blk s = some ((), { s with volume := v }) := by
  refine diskRead_open hmode (r := r) ?_
  rw [sought_past hpast]
  exact hread

theorem diskRead_card {fuel : Nat} {s t : State} {blk : ULong} (hmode : s.sdFat ≠ 0)
    (hpast : s.volume.fileSize ≤ blk) (hrun : diskRead fuel blk s = some ((), t)) :
    t.sram = s.sram ∧ t.card.image = s.card.image := by
  rw [diskRead, Prog.get_bind_run, Prog.ite_run, if_neg hmode] at hrun
  obtain ⟨_, u, hseek, hread⟩ := Prog.bind_eq_some.mp hrun
  obtain ⟨_, hseek⟩ := Prog.discard_eq_some.mp hseek
  rw [onVolume_of_run (Fat.fatSeek_run blk s.volume), sought_past hpast] at hseek
  cases hseek
  obtain ⟨_, hread⟩ := Prog.discard_eq_some.mp hread
  obtain ⟨v, hfetch, rfl⟩ := onVolume_eq_some.mp hread
  exact ⟨rfl, fetchCluster_image hfetch⟩

/-- A command beyond the end is contained if it is a write that is
stopped. -/
theorem contained_iff {fuel : Nat} {s t : State} {val : Byte} (hmode : s.sdFat ≠ 0)
    (hdrive : s.drive = 0 ∨ s.drive = 8) (hval : val = 0 ∨ val = 1)
    (hpast : s.volume.fileSize ≤ s.blk) (hread : diskRead fuel s.blk s = some ((), t)) :
    (∃ s', out fuel 13 val s = some ((), s') ∧ Contained s s')
      ↔ val = 1 ∧ (s.wrPrt ≠ 0 ∨ (t.given s.off s.dma 128).card.Spares t.card.curBlk) := by
  obtain ⟨hsram, himage⟩ := diskRead_card hmode hpast hread
  exact out_contained_iff hdrive hval hread hsram himage

/-- The same situation with other faults to come. -/
def State.withFaults (s : State) (faults : List Fault) : State :=
  s.withCard { s.card with faults := faults }

/-- Whatever stdio does, the command reports an error and changes neither
RAM nor the card. -/
def Refuses (s : State) (val : Byte) : Prop :=
  ∀ faults, ∃ fuel s', out fuel 13 val (s.withFaults faults) = some ((), s') ∧ Contained s s'

theorem contained_withFaults {s s' : State} {faults : List Fault} :
    Contained (s.withFaults faults) s' ↔ Contained s s' :=
  contained_of_read rfl rfl

theorem Working.withFaults {s : State} (h : Working s) (faults : List Fault) :
    Working (s.withFaults faults) :=
  ⟨⟨h.sized.dirSector, h.sized.clusters⟩, h.addressed⟩

/-- On a drive that exists the command asks for its block first. -/
theorem command_reads {fuel : Nat} {val : Byte} {s s' : State}
    (hdrive : s.drive = 0 ∨ s.drive = 8) (hrun : out fuel 13 val s = some ((), s')) :
    ∃ t, diskRead fuel s.blk s = some ((), t) := by
  have hrun : command fuel val s = some ((), s') := hrun
  rw [command, Prog.get_bind_run, Prog.ite_run, if_pos hdrive] at hrun
  obtain ⟨_, t, ht, -⟩ := Prog.bind_eq_some.mp hrun
  exact ⟨t, ht⟩

theorem refuses_iff {s : State} {val : Byte} (hs : Working s) (hmode : s.sdFat ≠ 0)
    (hdrive : s.drive = 0 ∨ s.drive = 8) (hval : val = 0 ∨ val = 1)
    (hpast : s.volume.fileSize ≤ s.blk) :
    Refuses s val ↔ val = 1 ∧ (s.wrPrt ≠ 0 ∨ s.card.fp ≠ some true) := by
  have hfp {fuel : Nat} {faults : List Fault} {t : State}
      (hread : diskRead fuel s.blk (s.withFaults faults) = some ((), t)) :
      t.card.fp = s.card.fp :=
    (diskRead_keeps (R := OrderlyRun) fuel _ _ () t hread).fp
  constructor
  · intro h
    -- with no fault to come only permission can stop a write
    obtain ⟨fuel, s', hout, hcont⟩ := h []
    obtain ⟨t, hread⟩ := command_reads (s := s.withFaults []) hdrive hout
    obtain ⟨rfl, hstop⟩ := (contained_iff (s := s.withFaults []) hmode hdrive hval hpast
      hread).mp ⟨s', hout, contained_withFaults.mpr hcont⟩
    refine ⟨rfl, hstop.imp id fun hno hopen => hno.1 (storeOk_given.mpr ?_)⟩
    have horderly := diskRead_keeps (R := OrderlyRun) fuel _ _ () t hread
    exact storeOk_addressed (horderly.addressed hs.addressed) ((hfp hread).trans hopen)
      (horderly.quiet rfl)
  · rintro ⟨rfl, hstop⟩ faults
    obtain ⟨fuel, r, v, hfetch⟩ := Fat.fetchCluster_returns
      ((hs.withFaults faults).clusters hmode) (s.withFaults faults).volume.fileOffset
    have hread := diskRead_past (s := s.withFaults faults) hmode hpast hfetch
    have hiff : (∃ s', out fuel 13 1 (s.withFaults faults) = some ((), s')
        ∧ Contained (s.withFaults faults) s') ↔ _ :=
      contained_iff hmode hdrive (.inr rfl) hpast hread
    obtain ⟨s', hout, hcont⟩ := hiff.mpr ⟨rfl, hstop.imp id fun hno =>
      spares_of_none (accepted_of_unready (.inl fun hopen => hno ((hfp hread).symm.trans hopen)))⟩
    exact ⟨fuel, s', hout, contained_withFaults.mp hcont⟩

theorem command_nowhere {s : State} (hno : ¬(s.drive = 0 ∨ s.drive = 8)) (fuel : Nat)
    (val : Byte) : out fuel 13 val s = some ((), { s with diskErr := 1 }) := by
  rw [show out fuel 13 val = command fuel val from rfl, command, Prog.get_bind_run, Prog.ite_run,
    if_neg hno]
  rfl

/-- On a file that is mounted, a command whose position is beyond the end
is refused only if there is no such drive, or if it is a write, and not
permitted. -/
theorem past_end_iff (fuel : Nat) {card : Card} {s₀ s : State} {r : Int} {es : List Turn}
    {val : Byte} (hcard : Addressed card)
    (hinit : fatInit (Volume.initial card) = some (r, s₀.volume))
    (hrun : Prog.runAll (Turn.run fuel) es s₀ = some ((), s)) (hmode : s.sdFat ≠ 0)
    (hval : val = 0 ∨ val = 1) (hpast : s.volume.fileSize ≤ s.blk) :
    Refuses s val
      ↔ (s.drive ≠ 0 ∧ s.drive ≠ 8) ∨ val = 1 ∧ (s.wrPrt ≠ 0 ∨ s.card.fp ≠ some true) := by
  by_cases hdrive : s.drive = 0 ∨ s.drive = 8
  · rw [refuses_iff (turns_working (working_initial hcard hinit) hrun) hmode hdrive hval hpast]
    constructor
    · exact .inr
    · rintro (⟨hno, hno'⟩ | h)
      · exact absurd hdrive (not_or.mpr ⟨hno, hno'⟩)
      · exact h
  · refine iff_of_true (fun faults => ?_) (.inl (not_or.mp hdrive))
    exact ⟨fuel, _, command_nowhere (s := s.withFaults faults) hdrive fuel val,
      (by decide : (1 : Byte) ≠ 0), rfl, rfl⟩

/-- A file of 512 bytes is mounted, and a sector of the second block is
addressed. -/
def pastSetup : List Turn :=
  [.event (.mount (ascii "A")), .event (.poke 0 0x5a), .event (.out 12 5)]

theorem sect5_blk {s : State} (hdrive : s.drive = 0) (htrack : s.track = 0) (hsect : s.sect = 5) :
    s.blk = 512 ∧ s.off = 0 := by
  rw [State.blk, State.off, State.pos, hdrive, htrack, hsect]
  decide

theorem fileOpen_past {s : State} (hvol : s.volume = fileOpen) (hblk : s.blk = 512) :
    s.volume.fileSize ≤ s.blk := by
  rw [hvol, hblk]
  decide

theorem pastSetup_run : ∃ s, Prog.runAll (Turn.run 1) pastSetup
      (booted (smallVolume fileImage [])) = some ((), s)
    ∧ s.volume = fileOpen ∧ s.sdFat = 1 ∧ s.wrPrt = 0 ∧ s.drive = 0 ∧ s.blk = 512 ∧ s.off = 0
    ∧ s.dma = 0 ∧ s.sram 0 = 0x5a := by
  obtain ⟨console, hmount⟩ := file_mount
  generalize ht : ({ booted (smallVolume fileImage []) with
      volume := fileOpen
      console := console
      eeprom := noted (ascii "A") (booted (smallVolume fileImage [])).eeprom } : State) = t
    at hmount
  have hmount' : Turn.run 1 (.event (.mount (ascii "A"))) (booted (smallVolume fileImage []))
      = some ((), t) := hmount
  refine ⟨{ t with sram := Function.update t.sram 0 0x5a, sect := 5 }, ?_, ?_⟩
  · rw [pastSetup, Prog.runAll, Prog.bind_of_run hmount']
    rfl
  · subst ht
    obtain ⟨hblk, hoff⟩ := sect5_blk (s := { booted (smallVolume fileImage []) with
      volume := fileOpen
      console := console
      eeprom := noted (ascii "A") (booted (smallVolume fileImage [])).eeprom
      sram := Function.update (fun _ => 0) 0 0x5a
      sect := 5 }) rfl rfl rfl
    exact ⟨rfl, rfl, rfl, rfl, hblk, hoff, (by decide : word 0 0 = 0), rfl⟩

theorem wp_on_run (s : State) :
    ∃ console, wp (ascii "on") s = some ((), { s with wrPrt := 1, console := console }) := by
  have hon : strdcmp (ascii "on") (ascii "on") 0 = 0 := by decide +kernel
  rw [wp, Prog.bind_of_run (puts_run _ _), Prog.ite_run, if_pos hon,
    Prog.bind_of_run (puts_run _ _)]
  exact ⟨_, rfl⟩

/-- Neither a read nor a write is refused; with the write protection on,
the write is. -/
theorem past_end_file : ∃ s t, Prog.runAll (Turn.run 1) pastSetup
      (booted (smallVolume fileImage [])) = some ((), s) ∧ ¬Refuses s 0 ∧ ¬Refuses s 1
    ∧ Prog.runAll (Turn.run 1) (pastSetup ++ [.wp (ascii "on")])
      (booted (smallVolume fileImage [])) = some ((), t) ∧ ¬Refuses t 0 ∧ Refuses t 1 := by
  obtain ⟨s, hrun, hvol, hmode, hwp, hdrive, hblk, -, -, -⟩ := pastSetup_run
  obtain ⟨console, hon⟩ := wp_on_run s
  have hrun' : Prog.runAll (Turn.run 1) (pastSetup ++ [.wp (ascii "on")])
      (booted (smallVolume fileImage [])) = some ((), { s with wrPrt := 1, console := console }) :=
    (Prog.runAll_append hrun).trans (Prog.bind_of_run hon _)
  have hmode' : s.sdFat ≠ 0 := by
    rw [hmode]
    decide
  have hpast := fileOpen_past hvol hblk
  have hfp : s.card.fp = some true := by
    rw [State.card, hvol]
    rfl
  have hread : ¬((s.drive ≠ 0 ∧ s.drive ≠ 8) ∨ (0 : Byte) = 1 ∧ (s.wrPrt ≠ 0
      ∨ s.card.fp ≠ some true)) := by
    rintro (⟨hno, -⟩ | ⟨hno, -⟩)
    · exact hno hdrive
    · exact absurd hno (by decide)
  have hwrite : ¬((s.drive ≠ 0 ∧ s.drive ≠ 8) ∨ (1 : Byte) = 1 ∧ (s.wrPrt ≠ 0
      ∨ s.card.fp ≠ some true)) := by
    rintro (⟨hno, -⟩ | ⟨-, hno | hno⟩)
    · exact hno hdrive
    · exact hno hwp
    · exact hno hfp
  have hread' : ¬((s.drive ≠ 0 ∧ s.drive ≠ 8) ∨ (0 : Byte) = 1 ∧ ((1 : Byte) ≠ 0
      ∨ s.card.fp ≠ some true)) := by
    rintro (⟨hno, -⟩ | ⟨hno, -⟩)
    · exact hno hdrive
    · exact absurd hno (by decide)
  have hprotected : (1 : Byte) ≠ 0 := by decide
  have hcard : Addressed { Fat.blankCard [] with image := fileImage } := ⟨by decide, by decide⟩
  exact ⟨s, _, hrun,
    (past_end_iff 1 hcard fileVolume_init hrun hmode' (.inl rfl) hpast).not.mpr hread,
    (past_end_iff 1 hcard fileVolume_init hrun hmode' (.inr rfl) hpast).not.mpr hwrite, hrun',
    (past_end_iff 1 hcard fileVolume_init hrun' hmode' (.inl rfl) hpast).not.mpr hread',
    (past_end_iff 1 hcard fileVolume_init hrun' hmode' (.inr rfl) hpast).mpr
      (.inr ⟨rfl, .inl hprotected⟩)⟩

/-- A read beyond the end brings the beginning of the file. -/
theorem past_end_served : ∃ s s', Prog.runAll (Turn.run 1) pastSetup
      (booted (smallVolume fileImage [])) = some ((), s)
    ∧ s.sdFat = 1 ∧ s.volume.fileSize ≤ s.blk ∧ out 1 13 0 s = some ((), s') ∧ s'.diskErr = 0
    ∧ s'.sram 0 = fileImage.byte 2048 ∧ s'.sram 0 ≠ s.sram 0 := by
  obtain ⟨s, hrun, hvol, hmode, -, hdrive, hblk, hoff, hdma, hram⟩ := pastSetup_run
  have hmode' : s.sdFat ≠ 0 := by
    rw [hmode]
    decide
  have hpast := fileOpen_past hvol hblk
  have hfat : Fat.fatRead 1 s.volume
      = some (0, { fileOpen with card := fileOpen.card.loaded 2048, lastCluster := 2 }) := by
    rw [hvol]
    exact fileOpen_read
  have hread := diskRead_past hmode' hpast hfat
  have hout := (command_run (.inl hdrive) hread 0).trans
    ((if_pos rfl).trans (receive_run s.off s.dma _))
  rw [hoff, hdma] at hout
  have hne : fileImage.byte 2048 ≠ 0x5a := by decide
  exact ⟨s, _, hrun, hmode, hpast, hout, rfl, rfl, hram.symm ▸ hne⟩

end Machine

end CpMega88
