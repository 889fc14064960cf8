import CpMega88.Footprint

/-!
# What the monitor commands touch

Frame facts about the commands of the monitor. Reading a directory
(`Wandered`) leaves the image, the geometry and the open file alone, and
moves the card on only together with the record of the last request.
`mount` either clears `sd_fat` or opens the entry whose name it was given
(`mount_opens`); every other command leaves the open file as it is
(`SameFile`).
-/

namespace CpMega88

open Bytes Sdcard

namespace Fat

/-! ## Reading a directory -/

/-- `v'` is `v` after requests for blocks of the current directory. -/
structure Wandered (v v' : Volume) : Prop where
  geometry : v'.toGeometry = v.toGeometry
  image : v'.card.image = v.card.image
  file : v'.fileCluster = v.fileCluster
  size : v'.fileSize = v.fileSize
  offset : v'.fileOffset = v.fileOffset
  dir : v'.dirCluster = v.dirCluster
  record : (v'.lastCluster = v.lastCluster ∧ v'.card.curBlk = v.card.curBlk)
    ∨ v'.lastCluster = v.dirCluster

theorem Wandered.refl (v : Volume) : Wandered v v :=
  ⟨rfl, rfl, rfl, rfl, rfl, rfl, .inl ⟨rfl, rfl⟩⟩

theorem Wandered.trans {v u w : Volume} (h : Wandered v u) (h' : Wandered u w) :
    Wandered v w := by
  refine ⟨h'.geometry.trans h.geometry, h'.image.trans h.image, h'.file.trans h.file,
    h'.size.trans h.size, h'.offset.trans h.offset, h'.dir.trans h.dir, ?_⟩
  rcases h'.record with ⟨hlast, hblk⟩ | hlast
  · rcases h.record with ⟨hlast', hblk'⟩ | hlast'
    · exact .inl ⟨hlast.trans hlast', hblk.trans hblk'⟩
    · exact .inr (hlast.trans hlast')
  · exact .inr (hlast.trans h.dir)

theorem wandered_dirOffset (v : Volume) (offset : Word) :
    Wandered v { v with dirOffset := offset } :=
  ⟨rfl, rfl, rfl, rfl, rfl, rfl, .inl ⟨rfl, rfl⟩⟩

theorem fetchCluster_last {fuel : Nat} {c : Word} {o : ULong} {v v' : Volume} {r : Int}
    (h : fetchCluster fuel c o v = some (r, v')) : v'.lastCluster = c := by
  by_cases hhit : v.hit c o
  · rw [fetchCluster_hit hhit] at h
    cases h
    exact hhit.1.symm
  · obtain ⟨card, -, rfl⟩ := fetchCluster_moves hhit h
    rfl

theorem fetchCluster_wandered {fuel : Nat} {o : ULong} {v v' : Volume} {r : Int}
    (h : fetchCluster fuel v.dirCluster o v = some (r, v')) : Wandered v v' := by
  by_cases hhit : v.hit v.dirCluster o
  · rw [fetchCluster_hit hhit] at h
    cases h
    exact .refl _
  · obtain ⟨card, hmoved, rfl⟩ := fetchCluster_moves hhit h
    exact ⟨rfl, hmoved.image, rfl, rfl, rfl, rfl, .inr rfl⟩

theorem nextLoop_wandered {fuel left : Nat} {v v' : Volume} {r : Int}
    (h : nextLoop fuel left v = some (r, v')) :
    Wandered v v' ∧ (0 ≤ r → v'.lastCluster = v'.dirCluster) := by
  induction left generalizing v with
  | zero =>
      cases h
      exact ⟨.refl _, fun hr => absurd hr (by decide)⟩
  | succ left ih =>
      rw [nextLoop_run] at h
      obtain ⟨⟨r', u⟩, hfetch, hrest⟩ := Option.bind_eq_some_iff.mp h
      have hu := fetchCluster_wandered hfetch
      split_ifs at hrest with hneg hunused
      · cases hrest
        exact ⟨hu, fun hr => absurd hr (by decide)⟩
      · obtain ⟨hw, hlast⟩ := ih hrest
        exact ⟨hu.trans ((wandered_dirOffset u _).trans hw), hlast⟩
      · cases hrest
        exact ⟨hu, fun _ => (fetchCluster_last hfetch).trans hu.dir.symm⟩

theorem fatNext_wandered {fuel : Nat} {v v' : Volume} {r : Int}
    (h : fatNext fuel v = some (r, v')) :
    Wandered v v' ∧ (0 ≤ r → v'.lastCluster = v'.dirCluster) := by
  obtain ⟨hw, hlast⟩ := nextLoop_wandered h
  exact ⟨(wandered_dirOffset v _).trans hw, hlast⟩

theorem fatNext_entries {fuel : Nat} {v v' : Volume} {r : Int}
    (h : fatNext fuel v = some (r, v')) (hr : 0 ≤ r) : v'.dirEntries ≠ 0 := by
  rw [(fatNext_wandered h).1.geometry]
  intro hnone
  rw [fatNext, Prog.modify_bind_run, Prog.get_bind_run] at h
  have hleft : v.dirEntries.toNat - (v.dirOffset + 1).toNat = 0 := by
    rw [hnone]
    exact Nat.zero_sub _
  rw [show ({ v with dirOffset := v.dirOffset + 1 } : Volume).dirEntries.toNat
    - ({ v with dirOffset := v.dirOffset + 1 } : Volume).dirOffset.toNat = 0 from hleft] at h
  cases h
  exact absurd hr (by decide)

/-! ## The entry found -/

/-- First cluster and attributes of the entry at `dir_offset`. -/
def Volume.entryCluster (v : Volume) : Word :=
  word (v.card.buffer (v.entryOff + 26 + 1).toNat) (v.card.buffer (v.entryOff + 26).toNat)

def Volume.entryAttr (v : Volume) : Byte := v.card.buffer (v.entryOff + 11).toNat

/-- The name in an entry, from index `i` on. -/
def nameAt (buffer : Nat → Byte) (off : Word) : Nat → Nat → List Byte
  | 0, _ => []
  | left + 1, i =>
    let c := buffer (off + BitVec.ofNat 16 i).toNat
    if c = 0x20#8 then nameAt buffer off left (i + 1)
    else if i = 8 then 0x2e#8 :: c :: nameAt buffer off left (i + 1)
    else c :: nameAt buffer off left (i + 1)

def Volume.entryName (v : Volume) : List Byte := nameAt v.card.buffer v.entryOff 11 0

theorem read_bind_run {α : Type} (off : Word) (k : Byte → FatM α) (v : Volume) :
    (onCard (Sdcard.read off) >>= k) v = k (v.card.buffer off.toNat) v := rfl

theorem nameFrom_run (left i : Nat) (v : Volume) :
    nameFrom left i v = some (nameAt v.card.buffer v.entryOff left i, v) := by
  induction left generalizing i with
  | zero => rfl
  | succ left ih =>
      rw [nameFrom, Prog.get_bind_run, read_bind_run, Prog.bind_of_run (ih (i + 1)), nameAt]
      simp only [Prog.ite_run, Prog.pure_run]
      split_ifs <;> rfl

theorem fatName_run (v : Volume) : fatName v = some (v.entryName, v) := nameFrom_run 11 0 v

theorem fatAttr_run (v : Volume) : fatAttr v = some (v.entryAttr, v) := rfl

/-! ## The open file -/

def Volume.entrySize (v : Volume) : ULong :=
  ((word (v.card.buffer (v.entryOff + 28 + 2 + 1).toNat)
      (v.card.buffer (v.entryOff + 28 + 2).toNat)).setWidth 64 <<< 16)
    ||| (word (v.card.buffer (v.entryOff + 28 + 1).toNat)
      (v.card.buffer (v.entryOff + 28).toNat)).setWidth 64

/-- The offset that is current after a seek. -/
def Volume.sought (v : Volume) (pos : ULong) : ULong :=
  if v.fileSize ≤ pos then v.fileOffset else pos

theorem fatSeek_run (pos : ULong) (v : Volume) :
    fatSeek pos v = some (if v.fileSize ≤ pos then -1 else 0,
      { v with fileOffset := v.sought pos }) := by
  rw [fatSeek, Prog.get_bind_run, Prog.ite_run, Volume.sought]
  split_ifs <;> rfl

/-- The volume with the file of the entry open. -/
def Volume.opening (v : Volume) : Volume :=
  { v with fileCluster := v.entryCluster, fileSize := v.entrySize }

theorem fatOpen_run (v : Volume) :
    fatOpen v = some (if v.entrySize ≤ 0 then -1 else 0,
      { v.opening with fileOffset := v.opening.sought 0 }) :=
  fatSeek_run 0 v.opening

end Fat

/-! ## Parts of the machine -/

namespace Machine

open Fat (Volume fatName fatNext fatOpen fatAttr fatRewind)

/-- Volume, mode and write protection are what they were. -/
def SameDisk (s s' : State) : Prop :=
  s'.volume = s.volume ∧ s'.sdFat = s.sdFat ∧ s'.wrPrt = s.wrPrt

instance : IsPreorder State SameDisk where
  refl _ := ⟨rfl, rfl, rfl⟩
  trans _ _ _ h h' := ⟨h'.1.trans h.1, h'.2.1.trans h.2.1, h'.2.2.trans h.2.2⟩

instance : MayPrint SameDisk := ⟨fun _ _ => ⟨rfl, rfl, rfl⟩⟩

instance : MayHear SameDisk := ⟨fun _ _ _ => ⟨rfl, rfl, rfl⟩⟩

instance : MayPoke SameDisk := ⟨fun _ _ => ⟨rfl, rfl, rfl⟩⟩

instance : MayLatch SameDisk := ⟨fun _ _ _ _ _ _ _ _ => ⟨rfl, rfl, rfl⟩⟩

instance : MayNote SameDisk := ⟨fun _ _ => ⟨rfl, rfl, rfl⟩⟩

/-! ## The open file stays open -/

/-- Mode, geometry and open file are what they were. -/
def SameFile (s s' : State) : Prop :=
  s'.sdFat = s.sdFat ∧ s'.volume.toGeometry = s.volume.toGeometry
    ∧ s'.volume.fileCluster = s.volume.fileCluster

instance : IsPreorder State SameFile where
  refl _ := ⟨rfl, rfl, rfl⟩
  trans _ _ _ h h' := ⟨h'.1.trans h.1, h'.2.1.trans h.2.1, h'.2.2.trans h.2.2⟩

instance : MayPrint SameFile := ⟨fun _ _ => ⟨rfl, rfl, rfl⟩⟩

instance : MayHear SameFile := ⟨fun _ _ _ => ⟨rfl, rfl, rfl⟩⟩

instance : MayPoke SameFile := ⟨fun _ _ => ⟨rfl, rfl, rfl⟩⟩

instance : MayLatch SameFile := ⟨fun _ _ _ _ _ _ _ _ => ⟨rfl, rfl, rfl⟩⟩

instance : MaySet SameFile := ⟨fun _ _ _ => ⟨rfl, rfl, rfl⟩⟩

/-- What the file system does without another geometry and another file. -/
theorem ofVolume_sameFile {v v' : Volume} (hgeo : v'.toGeometry = v.toGeometry)
    (hfile : v'.fileCluster = v.fileCluster) : OfVolume SameFile v v' := by
  rintro s rfl
  exact ⟨rfl, hgeo, hfile⟩

instance : Fat.MayRead (OfVolume SameFile) where
  fetch _ _ := ofVolume_sameFile rfl rfl
  record _ _ _ := ofVolume_sameFile rfl rfl
  seek _ _ := ofVolume_sameFile rfl rfl

instance : Fat.MayWrite (OfVolume SameFile) where
  write _ _ _ := ofVolume_sameFile rfl rfl
  store _ _ := ofVolume_sameFile rfl rfl

instance : Fat.MayBrowse (OfVolume SameFile) := .of_read fun _ _ => ofVolume_sameFile rfl rfl

/-! ## The card is left as it is -/

/-- The contents of the card are what they were. -/
def SameContents (s s' : State) : Prop := s'.volume.card.image = s.volume.card.image

instance : IsPreorder State SameContents where
  refl _ := rfl
  trans _ _ _ h h' := h'.trans h

instance : MayPrint SameContents := ⟨fun _ _ => rfl⟩

instance : MayHear SameContents := ⟨fun _ _ _ => rfl⟩

instance : MayPoke SameContents := ⟨fun _ _ => rfl⟩

instance : MayLatch SameContents := ⟨fun _ _ _ _ _ _ _ _ => rfl⟩

instance : MayNote SameContents := ⟨fun _ _ => rfl⟩

instance : MayMount SameContents := ⟨fun _ _ => rfl⟩

theorem ofVolume_sameContents {v v' : Volume} (h : v'.card.image = v.card.image) :
    OfVolume SameContents v v' := by
  rintro s rfl
  exact h

instance : Fat.MayRead (OfVolume SameContents) := .of_image fun _ _ => ofVolume_sameContents

instance : Fat.MayBrowse (OfVolume SameContents) := .of_read fun _ _ => ofVolume_sameContents rfl

instance : Fat.MayOpen (OfVolume SameContents) where
  cluster _ _ := ofVolume_sameContents rfl
  size _ _ := ofVolume_sameContents rfl

/-! ## Browsing -/

/-- Only requests for blocks of the current directory have come between. -/
structure Roams (s s' : State) : Prop where
  volume : Fat.Wandered s.volume s'.volume
  mode : s'.sdFat = s.sdFat
  protection : s'.wrPrt = s.wrPrt

instance : IsPreorder State Roams where
  refl _ := ⟨.refl _, rfl, rfl⟩
  trans _ _ _ h h' := ⟨h.volume.trans h'.volume, h'.mode.trans h.mode,
    h'.protection.trans h.protection⟩

instance : MayPrint Roams := ⟨fun _ _ => ⟨.refl _, rfl, rfl⟩⟩

theorem ofVolume_roams {v v' : Volume} (h : Fat.Wandered v v') : OfVolume Roams v v' := by
  rintro s rfl
  exact ⟨h, rfl, rfl⟩

instance : Fat.MayBrowse (OfVolume Roams) where
  next _ _ _ _ h := ofVolume_roams (Fat.fatNext_wandered h).1
  rewind := .modify fun v => ofVolume_roams (Fat.wandered_dirOffset v _)

theorem Roams.sameFile {s s' : State} (h : Roams s s') : SameFile s s' :=
  ⟨h.mode, h.volume.geometry, h.volume.file⟩

/-- A `cd` that finds its directory goes there; the file stays open. -/
theorem cdLoop_roams {fuel left : Nat} {arg : List Byte} {s s' : State}
    (h : cdLoop fuel arg left s = some ((), s')) :
    ∃ t, Roams s t ∧ (s' = t ∨ ∃ cluster offset,
      s' = { t with volume := { t.volume with dirCluster := cluster, dirOffset := offset } }) := by
  induction left generalizing s with
  | zero => cases (Prog.failure_run s).symm.trans h
  | succ left ih =>
      rw [cdLoop] at h
      obtain ⟨r, t, hnext, h⟩ := Prog.bind_eq_some.mp h
      have ht : Roams s t := onVolume_keeps (Fat.MayBrowse.next fuel) s r t hnext
      rw [Prog.ite_run] at h
      split_ifs at h with hneg
      · cases h
        exact ⟨_, ht, .inl rfl⟩
      · rw [Prog.bind_of_run (onVolume_of_run (Fat.fatAttr_run t.volume)), Prog.ite_run] at h
        split_ifs at h with hfile
        · obtain ⟨u, hu, hs'⟩ := ih h
          exact ⟨u, IsTrans.trans _ _ _ ht hu, hs'⟩
        · rw [Prog.bind_of_run (onVolume_of_run (Fat.fatName_run t.volume)), Prog.ite_run] at h
          split_ifs at h with hname
          · obtain ⟨u, hu, hs'⟩ := ih h
            exact ⟨u, IsTrans.trans _ _ _ ht hu, hs'⟩
          · obtain ⟨r', hchdir⟩ := Prog.discard_eq_some.mp h
            cases hchdir
            exact ⟨_, ht, .inr ⟨_, _, rfl⟩⟩

theorem cd_roams {fuel : Nat} {arg : List Byte} {s s' : State}
    (h : cd fuel (some arg) s = some ((), s')) :
    ∃ t, Roams s t ∧ (s' = t ∨ ∃ cluster offset,
      s' = { t with volume := { t.volume with dirCluster := cluster, dirOffset := offset } }) := by
  obtain ⟨_, u, hrewind, h⟩ := Prog.bind_eq_some.mp h
  obtain ⟨_, w, hget, hloop⟩ := Prog.bind_eq_some.mp h
  cases hget
  obtain ⟨t, ht, hend⟩ := cdLoop_roams hloop
  exact ⟨t, IsTrans.trans _ _ _ (onVolume_keeps Fat.MayBrowse.rewind s _ u hrewind) ht, hend⟩

/-! ## Mounting -/

/-- The entry that the volume is at has the name, and its file is open. -/
structure Opened (v : Volume) (name : List Byte) : Prop where
  named : strdcmp name v.entryName 0 = 0
  cluster : v.fileCluster = v.entryCluster
  recorded : v.lastCluster = v.dirCluster
  entries : v.dirEntries ≠ 0

theorem opened_opening {v : Volume} {name : List Byte} (hname : strdcmp name v.entryName 0 = 0)
    (hlast : v.lastCluster = v.dirCluster) (hentries : v.dirEntries ≠ 0) (offset : ULong) :
    Opened { v.opening with fileOffset := offset } name :=
  ⟨hname, rfl, hlast, hentries⟩

theorem puts_run (text : List Byte) (s : State) :
    puts text s = some ((), { s with console := (Con.puts text s.console).2 }) := rfl

theorem putsln_run (text : List Byte) (s : State) :
    putsln text s = some ((), { s with console := (Con.putsln text s.console).2 }) := rfl

theorem rewind_run (s : State) : onVolume fatRewind s
    = some ((), { s with volume := { s.volume with dirOffset := 0xffff } }) := rfl

/-- The record that `mount` leaves in the EEPROM. -/
def noted (name : List Byte) (rom : Eeprom.Rom) : Eeprom.Rom :=
  (Eeprom.write 16 0x88 (Eeprom.writeString 17 name (Eeprom.write 16 0 rom).2).2).2

/-- The end of a `mount` that has found the entry. -/
theorem mountFound_run (name : List Byte) (s : State) : ∃ console, (do
      discard (onVolume fatOpen)
      putsln (ascii " ok")
      modify fun s => { s with sdFat := 1 }
      onEeprom (Eeprom.write 16 0)
      onEeprom (Eeprom.writeString 17 name)
      onEeprom (Eeprom.write 16 0x88) : MachineM Unit) s = some ((), { s with
        volume := { s.volume.opening with fileOffset := s.volume.opening.sought 0 }
        sdFat := 1
        console := console
        eeprom := noted name s.eeprom }) := by
  have hopen := Prog.discard_eq_some (u := ()).mpr
    ⟨_, onVolume_of_run (Fat.fatOpen_run s.volume)⟩
  rw [Prog.bind_of_run hopen, Prog.bind_of_run (putsln_run _ _)]
  exact ⟨_, rfl⟩

/-- Up to the loop, `mount` writes to the console and rewinds. -/
theorem mount_run (fuel : Nat) (name : List Byte) (s : State) : ∃ console,
    mount fuel name s = mountLoop fuel name (s.volume.dirEntries.toNat + 1) { s with
      volume := { s.volume with dirOffset := 0xffff }
      console := console } := by
  refine ⟨(Con.puts name (Con.puts (ascii "A: ") s.console).2).2, ?_⟩
  rw [mount, Prog.bind_of_run (puts_run _ _), Prog.bind_of_run (puts_run _ _),
    Prog.bind_of_run (rewind_run _), Prog.get_bind_run]

/-- The first entry that `fat_next` finds is the one. -/
theorem mountLoop_found (left : Nat) (name : List Byte) {fuel : Nat} {s : State} {v : Volume}
    {r : Int}
    (hnext : fatNext fuel s.volume = some (r, v)) (hr : ¬r < 0)
    (hname : strdcmp name v.entryName 0 = 0) :
    ∃ console, mountLoop fuel name (left + 1) s = some ((), { s with
      volume := { v.opening with fileOffset := v.opening.sought 0 }
      sdFat := 1
      console := console
      eeprom := noted name s.eeprom }) := by
  obtain ⟨console, hfound⟩ := mountFound_run name { s with volume := v }
  refine ⟨console, ?_⟩
  rw [mountLoop, Prog.bind_of_run (onVolume_of_run hnext), Prog.ite_run, if_neg hr]
  have hread := onVolume_of_run (s := { s with volume := v }) (Fat.fatName_run v)
  rw [Prog.bind_of_run hread, Prog.ite_run, if_neg (not_not_intro hname)]
  exact hfound

/-- There is no further entry. -/
theorem mountLoop_missing (left : Nat) (name : List Byte) {fuel : Nat} {s : State} {v : Volume}
    {r : Int}
    (hnext : fatNext fuel s.volume = some (r, v)) (hr : r < 0) :
    ∃ console, mountLoop fuel name (left + 1) s = some ((), { s with
      volume := v
      sdFat := 0
      console := console }) := by
  rw [mountLoop, Prog.bind_of_run (onVolume_of_run hnext), Prog.ite_run, if_pos hr,
    Prog.bind_of_run (putsln_run _ _)]
  exact ⟨_, rfl⟩

theorem mountLoop_opens {fuel left : Nat} {name : List Byte} {s s' : State}
    (h : mountLoop fuel name left s = some ((), s')) :
    s'.sdFat = 0 ∨ s'.sdFat = 1 ∧ Opened s'.volume name := by
  induction left generalizing s with
  | zero => cases (Prog.failure_run s).symm.trans h
  | succ left ih =>
      rw [mountLoop] at h
      obtain ⟨r, t, hnext, h⟩ := Prog.bind_eq_some.mp h
      rw [Prog.ite_run] at h
      split_ifs at h with hneg
      · obtain ⟨_, u, -, hend⟩ := Prog.bind_eq_some.mp h
        cases hend
        exact .inl rfl
      · rw [Prog.bind_of_run (onVolume_of_run (Fat.fatName_run t.volume)), Prog.ite_run] at h
        split_ifs at h with hname
        · exact ih h
        · obtain ⟨v, hv, rfl⟩ := onVolume_eq_some.mp hnext
          have hlast := (Fat.fatNext_wandered hv).2 (not_lt.mp hneg)
          have hentries := Fat.fatNext_entries hv (not_lt.mp hneg)
          obtain ⟨console, hfound⟩ := mountFound_run name { s with volume := v }
          cases hfound.symm.trans h
          exact .inr ⟨rfl, opened_opening (not_not.mp hname) hlast hentries _⟩

/-- Either nothing is mounted, or the entry of that name. -/
theorem mount_opens {fuel : Nat} {name : List Byte} {s s' : State}
    (h : mount fuel name s = some ((), s')) :
    s'.sdFat = 0 ∨ s'.sdFat = 1 ∧ Opened s'.volume name := by
  obtain ⟨_, t, -, h⟩ := Prog.bind_eq_some.mp h
  obtain ⟨_, u, -, h⟩ := Prog.bind_eq_some.mp h
  obtain ⟨_, w, -, h⟩ := Prog.bind_eq_some.mp h
  exact mountLoop_opens h

end Machine

end CpMega88
