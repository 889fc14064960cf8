import CpMega88.RootDir

/-!
# A mounted file after a reset

`mount` looks a name up in the current directory and records the name
alone; `machine_boot` looks the recorded name up in the root directory,
and does not clear the record of the last request. So the file that was
mounted is opened again exactly if the name leads to it from there
(`reset_restores_iff`): through the blocks of the root directory, or, if
its first block is on record at the reset, with the boot sector in place
of that block.
-/

namespace CpMega88

open Bytes Sdcard CellWrites

namespace Machine

open Eeprom (perform)
open Fat (Fat16 Volume Searching findFrom fatNext)

/-! ## The commands `cd` and `m` -/

inductive Command where
  | cd (arg : Option (List Byte))
  | mount (name : List Byte)

def Command.run (fuel : Nat) : Command → MachineM Unit
  | .cd arg => Machine.cd fuel arg
  | .mount name => Machine.mount fuel name

/-- The name given to the last `m`, or `last` if there is none. -/
def lastName : Option (List Byte) → List Command → Option (List Byte)
  | last, [] => last
  | last, .cd _ :: cs => lastName last cs
  | _, .mount name :: cs => lastName (some name) cs

/-- Image, EEPROM and mode are what they were. -/
def Browsed (s s' : State) : Prop :=
  s'.card.image = s.card.image ∧ s'.eeprom = s.eeprom ∧ s'.sdFat = s.sdFat

instance : IsPreorder State Browsed where
  refl _ := ⟨rfl, rfl, rfl⟩
  trans _ _ _ h h' := ⟨h'.1.trans h.1, h'.2.1.trans h.2.1, h'.2.2.trans h.2.2⟩

theorem ofVolume_browsed {v v' : Volume} (h : v'.card.image = v.card.image) :
    OfVolume Browsed v v' := by
  rintro s rfl
  exact ⟨h, rfl, rfl⟩

instance : Fat.MayRead (OfVolume Browsed) := .of_image fun _ _ => ofVolume_browsed

instance : Fat.MayBrowse (OfVolume Browsed) := .of_read fun _ _ => ofVolume_browsed rfl

instance : Fat.MayEnter (OfVolume Browsed) := ⟨fun _ _ _ => ofVolume_browsed rfl⟩

instance : Fat.MayInit (OfVolume Browsed) := ⟨fun _ _ => ofVolume_browsed rfl⟩

/-! ## What is recorded -/

/-- The EEPROM is initialised and, while a file is mounted, has its name,
the one last given to `mount`. -/
structure Recorded (last : Option (List Byte)) (s : State) : Prop where
  works : s.eeprom.Works
  marked : s.eeprom.cells 0 = 0x88
  named : ∀ name, last = some name → s.sdFat ≠ 0 →
    s.eeprom.cells 16 = 0x88 ∧ storedName s.eeprom.cells 13 17 = some (cstr name)

theorem initCalls_marked (cells : Word → Byte) : apply initCalls cells 0 = 0x88 := by
  rw [initCalls, apply_append, apply_cons, apply_nil, Function.update_self]

/-- The name that `machine_boot` takes from the EEPROM, if any. -/
def bootName (cells : Word → Byte) : Option (List Byte) :=
  if cells 0 = 0x88 ∧ cells 16 = 0x88 then storedName cells 13 17 else none

theorem storedName_cstr {cells : Word → Byte} {n : Nat} {addr : Word} {name : List Byte}
    (h : storedName cells n addr = some name) : cstr name = name := by
  induction n generalizing addr name with
  | zero => cases h
  | succ n ih =>
      rw [storedName] at h
      split_ifs at h with h0
      · cases h
        rfl
      · obtain ⟨rest, hrest, rfl⟩ := Option.map_eq_some_iff.mp h
        rw [cstr_cons, if_neg h0, ih hrest]

theorem configure_recorded {fuel : Nat} {u t : State} {b : Bool} (hu : u.eeprom.Works)
    (h : configure fuel u = some (b, t)) : Recorded (bootName u.eeprom.cells) t := by
  obtain ⟨done, calls, hcalls, hworks, hcells, -⟩ := configure_calls hu h
  cases hcalls with
  | init h0 =>
      refine ⟨hworks, ?_, fun name hname => ?_⟩
      · rw [hcells]
        exact initCalls_marked _
      · rw [bootName, if_neg fun hboth => h0 hboth.1] at hname
        cases hname
  | plain h0 h16 =>
      refine ⟨hworks, hcells ▸ h0, fun name hname => ?_⟩
      rw [bootName, if_neg fun hboth => h16 hboth.2] at hname
      cases hname
  | named h0 h16 hstored hmount =>
      rw [bootName, if_pos ⟨h0, h16⟩, hstored]
      cases hmount with
      | missing =>
          refine ⟨hworks, hcells ▸ h0, fun name hname _ => ?_⟩
          obtain rfl := Option.some.inj hname
          rw [hcells, storedName_cstr hstored]
          exact ⟨h16, hstored⟩
      | found hopens =>
          refine ⟨hworks, ?_, fun name hname _ => ?_⟩
          · rw [hcells, mountCalls_below hopens (by decide), h0]
          · obtain rfl := Option.some.inj hname
            rw [hcells]
            exact ⟨guarded_marker _, mountCalls_stored hopens _⟩

theorem mount_recorded {fuel : Nat} {name : List Byte} {last : Option (List Byte)} {s s' : State}
    (h : Recorded last s) (hrun : mount fuel name s = some ((), s')) :
    Recorded (some name) s' := by
  cases mount_ends hrun with
  | missing hmode hrom =>
      refine ⟨hrom ▸ h.works, hrom ▸ h.marked, fun _ _ hne => absurd hmode hne⟩
  | found hmode hopens hrom =>
      obtain ⟨hworks, hcells, -⟩ := h.works.perform (mountCalls name)
      rw [← hrom] at hworks hcells
      refine ⟨hworks, ?_, fun name' hname _ => ?_⟩
      · rw [hcells, mountCalls_below hopens (by decide), h.marked]
      · obtain rfl := Option.some.inj hname
        rw [hcells]
        exact ⟨guarded_marker _, mountCalls_stored hopens _⟩

theorem run_recorded {fuel : Nat} {cs : List Command} {last : Option (List Byte)} {s s' : State}
    (h : Recorded last s) (hrun : Prog.runAll (Command.run fuel) cs s = some ((), s')) :
    Recorded (lastName last cs) s' ∧ s'.card.image = s.card.image := by
  induction cs generalizing last s with
  | nil =>
      cases hrun
      exact ⟨h, rfl⟩
  | cons c cs ih =>
      obtain ⟨_, t, hc, hrest⟩ := Prog.bind_eq_some.mp hrun
      cases c with
      | cd arg =>
          obtain ⟨himage, hrom, hmode⟩ : Browsed s t := cd_keeps fuel arg s () t hc
          have ht : Recorded last t := by
            refine ⟨hrom ▸ h.works, hrom ▸ h.marked, fun name hname hne => ?_⟩
            rw [hrom]
            exact h.named name hname (hmode ▸ hne)
          obtain ⟨hend, himage'⟩ := ih ht hrest
          exact ⟨hend, himage'.trans himage⟩
      | mount name =>
          have himage : SameContents s t := mount_keeps fuel name s () t hc
          obtain ⟨hend, himage'⟩ := ih (mount_recorded h hc) hrest
          exact ⟨hend, himage'.trans himage⟩

/-! ## After the reset -/

/-- The blocks in which `machine_boot` looks the name up: those of the
root directory, with the boot sector for the first one if that is on
record. -/
def bootRoot (image : Image) (stale : Bool) (b : Nat) : Option (Nat → Byte) :=
  if stale = true ∧ b = 0 then some (Fat.bootSector image)
  else Fat.rootBlock (Fat.geometry image) image b

/-- First cluster and size of the file that the name leads to from there. -/
def rootFile (image : Image) (stale : Bool) (name : List Byte) : Option (Word × ULong) :=
  findFrom name (bootRoot image stale) (Fat.geometry image).dirEntries.toNat 0

/-- A string and the list it is the head of are the same name. -/
theorem findFrom_cstr (name : List Byte) (block : Nat → Option (Nat → Byte)) (left i : Nat) :
    findFrom (cstr name) block left i = findFrom name block left i := by
  have hmatch (buffer : Nat → Byte) (i : Nat) :
      Fat.matchAt (cstr name) buffer i ↔ Fat.matchAt name buffer i := by
    rw [Fat.matchAt, Fat.matchAt, strdcmp_nul_iff, strdcmp_nul_iff, cstr_cstr]
  induction left generalizing i with
  | zero => rfl
  | succ left ih =>
      cases hblock : block (i / 16) with
      | none => rw [Fat.findFrom_unread hblock, Fat.findFrom_unread hblock]
      | some buffer =>
          by_cases hm : Fat.matchAt name buffer i
          · rw [Fat.findFrom_found hblock hm, Fat.findFrom_found hblock ((hmatch buffer i).mpr hm)]
          · rw [Fat.findFrom_next hblock hm, Fat.findFrom_next hblock (mt (hmatch buffer i).mp hm),
              ih]

theorem Mounts.eeprom {found : Option (Word × ULong)} {t : State} (h : Mounts found t)
    (e : Eeprom.Rom) : Mounts found { t with eeprom := e } := by
  cases found with
  | none => exact h
  | some file => exact h

/-- `machine_boot` mounts the recorded name. -/
theorem configure_remounts (fuel : Nat) {block : Nat → Option (Nat → Byte)} {name : List Byte}
    {u : State} (hworks : u.eeprom.Works) (h0 : u.eeprom.cells 0 = 0x88)
    (h16 : u.eeprom.cells 16 = 0x88) (hname : storedName u.eeprom.cells 13 17 = some name)
    (hmode : u.sdFat ≠ 0) (h : Searching block { u.volume with dirOffset := 0 } 0) :
    ∃ b t, configure fuel u = some (b, t)
      ∧ Mounts (findFrom name block u.volume.dirEntries.toNat 0) t := by
  obtain ⟨hworks0, hcells0⟩ := hworks.read 0
  obtain ⟨hworks16, hcells16⟩ := hworks0.read 16
  have hmark : ¬(Eeprom.read 0 u.eeprom).1 ≠ 0x88 := not_not_intro h0
  have hnamed : (Eeprom.read 16 (Eeprom.read 0 u.eeprom).2).1 = 0x88 :=
    (congrFun hcells0 16).trans h16
  obtain ⟨t, hremount, hmounts⟩ : ∃ t, remount fuel { u with
      eeprom := (Eeprom.read 0 u.eeprom).2
      console := (Con.putsln (ascii "EEPROM: load") u.console).2 } = some ((), t)
        ∧ Mounts (findFrom name block u.volume.dirEntries.toNat 0) t := by
    obtain ⟨e, -, hread⟩ := readString_run 13 17 (s := { u with
      eeprom := (Eeprom.read 16 (Eeprom.read 0 u.eeprom).2).2
      console := (Con.putsln (ascii "EEPROM: load") u.console).2 }) hworks16
    dsimp only at hread
    rw [hcells16, hcells0, hname, Option.map_some] at hread
    rw [remount, onEeprom_bind, Prog.ite_run, if_pos hnamed, Prog.bind_of_run hread,
      Prog.get_bind_run, Prog.ite_run, if_pos hmode]
    exact mount_root fuel name (s := { u with
      eeprom := e, console := (Con.putsln (ascii "EEPROM: load") u.console).2 }) h
  rw [configure, onEeprom_bind, Prog.ite_run, if_neg hmark, Prog.bind_of_run (putsln_run _ _),
    Prog.bind_of_run hremount, onEeprom_bind]
  exact ⟨_, _, rfl, hmounts.eeprom _⟩

/-- The blocks in which the scan begins once `machine_boot` has come to
the EEPROM. -/
theorem arrived_searching {r u : State} (h : Arrived r u) (haccess : r.card.access ≠ none)
    (hquiet : r.card.faults = []) :
    Searching (bootRoot r.card.image (decide (r.volume.hit 0 0)))
      { u.volume with dirOffset := 0 } 0 := by
  rw [h.volume]
  refine ⟨haccess, ?_, rfl, fun hhit => ⟨Fat.bootSector r.card.image, ?_, fun k hk => ?_⟩,
    fun hmiss => ?_, fun b hb => ?_⟩
  · show r.card.faults.tail.tail.tail = []
    rw [hquiet]
    rfl
  · have hstale : r.volume.hit 0 0 := hhit
    exact if_pos ⟨decide_eq_true hstale, rfl⟩
  · exact loaded_buffer _ _ hk
  · have hfresh : ¬r.volume.hit 0 0 := hmiss
    exact if_neg fun hb => hfresh (of_decide_eq_true hb.1)
  · exact if_neg fun hb' => absurd hb'.2 (Nat.ne_of_gt hb)

/-- The card and the EEPROM are unchanged and can be used; nothing is said
about the static variables, which the reset of the POSIX build keeps. -/
structure Reset (s r : State) : Prop where
  image : r.card.image = s.card.image
  access : r.card.access ≠ none
  quiet : r.card.faults = []
  works : r.eeprom.Works
  cells : r.eeprom.cells = s.eeprom.cells

theorem reset_remounts (fuel : Nat) {last : Option (List Byte)} {name : List Byte} {s r : State}
    (hfuel : 128 < fuel) (hfat : Fat16 s.card.image) (h : Recorded last s)
    (hlast : last = some name) (hmode : s.sdFat ≠ 0) (hreset : Reset s r) :
    ∃ b t, startup fuel r = some (b, t)
      ∧ Mounts (rootFile s.card.image (decide (r.volume.hit 0 0)) name) t := by
  obtain ⟨h16, hstored⟩ := h.named name hlast hmode
  rw [← hreset.image] at hfat ⊢
  refine startup_run hfuel hfat hreset.access hreset.quiet fun u hu => ?_
  have hcells : u.eeprom.cells = s.eeprom.cells := by
    rw [hu.eeprom]
    exact hreset.cells
  have hentries : u.volume.dirEntries = (Fat.geometry r.card.image).dirEntries := by
    rw [hu.volume]
    rfl
  have hsearch := arrived_searching hu hreset.access hreset.quiet
  obtain ⟨b, t, ht, hmounts⟩ := configure_remounts fuel (hu.eeprom ▸ hreset.works)
    (hcells ▸ h.marked) (hcells ▸ h16) (hcells ▸ hstored) (by rw [hu.mode]; decide) hsearch
  rw [findFrom_cstr, hentries] at hmounts
  exact ⟨b, t, ht, hmounts⟩

/-- The reset opens the file again if and only if the name last given to
`mount`, by an `m` or by `machine_boot`, leads to it from where the next
`machine_boot` looks. -/
theorem reset_restores_iff (fuel : Nat) {s₀ s₁ s r : State} {b₀ : Bool} {cmds : List Command}
    {name : List Byte} (hfuel : 128 < fuel) (hfat : Fat16 s₀.card.image) (hrom : s₀.eeprom.Works)
    (hboot : startup fuel s₀ = some (b₀, s₁))
    (hrun : Prog.runAll (Command.run fuel) cmds s₁ = some ((), s))
    (hlast : lastName (bootName s₀.eeprom.cells) cmds = some name) (hmounted : s.sdFat ≠ 0)
    (hreset : Reset s r) :
    ∃ b t, startup fuel r = some (b, t)
      ∧ ((t.sdFat = 1 ∧ t.volume.fileCluster = s.volume.fileCluster
          ∧ t.volume.fileSize = s.volume.fileSize)
        ↔ rootFile s.card.image (decide (r.volume.hit 0 0)) name
          = some (s.volume.fileCluster, s.volume.fileSize)) := by
  obtain ⟨u, ⟨himage, hrom'⟩, hconf⟩ := startup_sameStore hboot
  have hconf' : SameContents u s₁ := configure_keeps fuel u b₀ s₁ hconf
  obtain ⟨hrec, himage'⟩ := run_recorded (configure_recorded (hrom'.symm ▸ hrom) hconf) hrun
  rw [hrom'] at hrec
  have hsame : s.card.image = s₀.card.image := himage'.trans (hconf'.trans himage)
  obtain ⟨b, t, ht, hmounts⟩ := reset_remounts fuel hfuel (hsame ▸ hfat) hrec hlast hmounted hreset
  refine ⟨b, t, ht, ?_⟩
  generalize rootFile s.card.image (decide (r.volume.hit 0 0)) name = found at hmounts
  cases found with
  | none =>
      have hmode : t.sdFat = 0 := hmounts
      constructor
      · intro h
        exact absurd (hmode.symm.trans h.1) (by decide)
      · intro h
        cases h
  | some file =>
      obtain ⟨hmode, hcluster, hsize⟩ := hmounts
      constructor
      · rintro ⟨-, hcluster', hsize'⟩
        rw [← hcluster', ← hsize', hcluster, hsize]
      · intro h
        cases h
        exact ⟨hmode, hcluster, hsize⟩

/-! ## On a card -/

/-- The volume of `blankImage` with a directory `D` and a file `A` of one
cluster, and such a file `F` in the directory. -/
def dirImage : Image where
  len := Fat.blankImage.len
  byte := fun i => match i with
    | 1536 => 0x44
    | 1547 => 0x10
    | 1562 => 2
    | 1568 => 0x41
    | 1579 => 0x20
    | 1594 => 4
    | 1597 => 2
    | 2048 => 0x46
    | 2059 => 0x20
    | 2074 => 3
    | 2077 => 2
    | i => if 1536 < i ∧ i < 1547 ∨ 1568 < i ∧ i < 1579 ∨ 2048 < i ∧ i < 2059 then 0x20
      else Fat.blankImage.byte i

theorem dirImage_fat16 : Fat16 dirImage where
  table := by decide +kernel
  tableSigned := ⟨by decide, by decide⟩
  kind := .inl (by decide)
  boot := by decide +kernel
  bootSigned := ⟨by decide, by decide⟩
  sectorBytes := by decide
  perCluster := by decide

/-- With the first block on record even a file of the root directory is
lost. -/
example : rootFile dirImage false (ascii "A") = some (4, 512)
    ∧ rootFile dirImage true (ascii "A") = none := by
  decide +kernel

/-- The machine before its first start, with a new EEPROM. -/
def fresh : State := State.initial { Fat.blankCard [] with image := dirImage }

/-- The volume once `machine_boot` has read the boot sector. -/
def dirVolume : Volume :=
  Volume.inited { fresh.volume with card := (reopened fresh.card).loaded 0 }

theorem configure_blank {u : State} (h : u.eeprom.cells 0 ≠ 0x88) (fuel : Nat) :
    ∃ t, configure fuel u = some (false, t) ∧ t.volume = u.volume ∧ t.sdFat = u.sdFat := by
  have hinit := eepromInit_run { u with
    eeprom := (Eeprom.read 0 u.eeprom).2
    console := (Con.putsln (ascii "EEPROM: init") u.console).2 }
  have hmark : (Eeprom.read 0 u.eeprom).1 ≠ 0x88 := h
  rw [configure, onEeprom_bind, Prog.ite_run, if_pos hmark, Prog.bind_of_run (putsln_run _ _),
    Prog.bind_of_run hinit]
  exact ⟨_, rfl, rfl, rfl⟩

theorem fresh_startup : ∃ t, startup 129 fresh = some (false, t) ∧ t.volume = dirVolume := by
  have hrest (u : State) (hu : Arrived fresh u) : ∃ b t, configure 129 u = some (b, t)
      ∧ b = false ∧ t.volume = dirVolume := by
    have hblank : u.eeprom.cells 0 ≠ 0x88 := by
      rw [hu.eeprom]
      decide
    obtain ⟨t, ht, hvolume, -⟩ := configure_blank hblank 129
    exact ⟨false, t, ht, rfl, hvolume.trans hu.volume⟩
  obtain ⟨b, t, ht, rfl, hvolume⟩ :=
    startup_run (r := fresh) (by decide) dirImage_fat16 (by decide) rfl hrest
  exact ⟨t, ht, hvolume⟩

theorem fresh_works : fresh.eeprom.Works := .inr ⟨rfl, rfl, rfl⟩

/-- `A` is mounted. -/
theorem mount_a {s : State} (h : s.volume = dirVolume) :
    ∃ t, mount 129 (ascii "A") s = some ((), t) ∧ t.sdFat = 1 ∧ t.volume.fileCluster = 4
      ∧ t.volume.fileSize = 512 := by
  have harrived : Arrived fresh { fresh with volume := dirVolume, sdFat := 1 } := ⟨rfl, rfl, rfl⟩
  have hsearch := arrived_searching harrived (by decide) rfl
  have hsearch' : Searching (bootRoot dirImage false) { s.volume with dirOffset := 0 } 0 := by
    rw [h]
    exact hsearch
  obtain ⟨t, ht, hmounts⟩ := mount_root 129 (ascii "A") hsearch'
  have hfound : findFrom (ascii "A") (bootRoot dirImage false) s.volume.dirEntries.toNat 0
      = some (4, 512) := by
    rw [h]
    decide +kernel
  rw [hfound] at hmounts
  exact ⟨t, ht, hmounts⟩

/-- The state that a power cycle after `s` begins in. -/
def cycled (s : State) : State := { fresh with eeprom := s.eeprom }

/-- `A` is mounted again after a power cycle. -/
theorem reset_restores_root : ∃ s₁ s b t, startup 129 fresh = some (false, s₁)
    ∧ Prog.runAll (Command.run 129) [.mount (ascii "A")] s₁ = some ((), s)
    ∧ startup 129 (cycled s) = some (b, t)
    ∧ t.sdFat = 1 ∧ t.volume.fileCluster = 4 ∧ t.volume.fileSize = 512 := by
  obtain ⟨s₁, hboot, hvolume⟩ := fresh_startup
  obtain ⟨s, hmount, hmode, hcluster, hsize⟩ := mount_a hvolume
  have hrun : Prog.runAll (Command.run 129) [.mount (ascii "A")] s₁ = some ((), s) := by
    have hone : Command.run 129 (.mount (ascii "A")) s₁ = some ((), s) := hmount
    rw [Prog.runAll, Prog.bind_of_run hone]
    rfl
  have himage : s.card.image = dirImage := by
    have hsame : SameContents s₁ s := mount_keeps 129 _ s₁ () s hmount
    rw [State.card, hsame, hvolume]
    rfl
  obtain ⟨u, ⟨-, hrom⟩, hconf⟩ := startup_sameStore hboot
  have hrec := mount_recorded (configure_recorded (hrom.symm ▸ fresh_works) hconf) hmount
  have hreset : Reset s (cycled s) := ⟨himage.symm, Option.some_ne_none true, rfl, hrec.works, rfl⟩
  have hlast : lastName (bootName fresh.eeprom.cells) [.mount (ascii "A")] = some (ascii "A") := rfl
  have hfound : rootFile s.card.image (decide ((cycled s).volume.hit 0 0)) (ascii "A")
      = some (s.volume.fileCluster, s.volume.fileSize) := by
    rw [himage, hcluster, hsize]
    have hfresh : decide ((cycled s).volume.hit 0 0) = false := rfl
    rw [hfresh]
    decide +kernel
  have hfat : Fat16 fresh.card.image := dirImage_fat16
  obtain ⟨b, t, ht, hiff⟩ := reset_restores_iff 129 (by decide) hfat fresh_works hboot hrun hlast
    (by rw [hmode]; decide) hreset
  obtain ⟨hmode', hcluster', hsize'⟩ := hiff.mpr hfound
  exact ⟨s₁, s, b, t, hboot, hrun, ht, hmode', hcluster'.trans hcluster, hsize'.trans hsize⟩

/-- `fat_next` has found the directory, the commands go there, and it has
found the file. -/
def dirFound : Volume :=
  { dirVolume with card := dirVolume.card.loaded 1536, dirOffset := 0, lastCluster := 0 }

def inDir : Volume := { dirFound with dirCluster := 2, dirOffset := 0xffff }

def inDirFound : Volume :=
  { inDir with card := inDir.card.loaded 2048, dirOffset := 0, lastCluster := 2 }

theorem dirVolume_next : fatNext 129 { dirVolume with dirOffset := 0xffff } = some (0, dirFound) :=
  rfl

theorem inDir_next : fatNext 129 inDir = some (0, inDirFound) := rfl

/-- The first entry that `fat_next` finds is the directory. -/
theorem cdLoop_found (left : Nat) {fuel : Nat} {arg : List Byte} {s : State} {v : Volume} {r : Int}
    (hnext : fatNext fuel s.volume = some (r, v)) (hr : ¬r < 0)
    (hattr : ¬v.entryAttr &&& 0x10#8 = 0) (hname : strdcmp arg v.entryName 0 = 0) :
    cdLoop fuel arg (left + 1) s = some ((), { s with
      volume := { v with dirCluster := v.entryCluster, dirOffset := 0xffff } }) := by
  have hread := onVolume_of_run (s := { s with volume := v }) (Fat.fatAttr_run v)
  have hread' := onVolume_of_run (s := { s with volume := v }) (Fat.fatName_run v)
  rw [cdLoop, Prog.bind_of_run (onVolume_of_run hnext), Prog.ite_run, if_neg hr,
    Prog.bind_of_run hread, Prog.ite_run, if_neg hattr, Prog.bind_of_run hread', Prog.ite_run,
    if_neg (not_not_intro hname)]
  exact Prog.discard_eq_some.mpr ⟨0, rfl⟩

theorem cd_d {s : State} (h : s.volume = dirVolume) :
    cd 129 (some (ascii "D")) s = some ((), { s with volume := inDir }) := by
  have hattr : ¬dirFound.entryAttr &&& 0x10#8 = 0 := by decide +kernel
  have hname : strdcmp (ascii "D") dirFound.entryName 0 = 0 := by decide +kernel
  have hcluster : dirFound.entryCluster = 2 := by decide +kernel
  rw [cd, Prog.bind_of_run (rewind_run s), Prog.get_bind_run, h]
  have hfound := cdLoop_found 16 (s := { s with volume := { dirVolume with dirOffset := 0xffff } })
    dirVolume_next (by decide) hattr hname
  rw [hcluster] at hfound
  exact hfound

theorem mount_f {s : State} (h : s.volume = inDir) :
    ∃ t, mount 129 (ascii "F") s = some ((), t) ∧ t.sdFat = 1 ∧ t.volume.fileCluster = 3
      ∧ t.volume.fileSize = 512 := by
  have hname : strdcmp (ascii "F") inDirFound.entryName 0 = 0 := by decide +kernel
  have hcluster : inDirFound.entryCluster = 3 := by decide +kernel
  have hsize : inDirFound.entrySize = 512 := by decide +kernel
  obtain ⟨console, hrun⟩ := mount_run 129 (ascii "F") s
  rw [h] at hrun
  obtain ⟨console', hfound⟩ := mountLoop_found 16 (ascii "F")
    (s := { s with volume := inDir, console := console }) inDir_next (by decide) hname
  exact ⟨_, hrun.trans hfound, rfl, hcluster, hsize⟩

/-- `F` is mounted in the directory `D`; after a power cycle nothing is. -/
theorem reset_forgets_directory : ∃ s₁ s b t, startup 129 fresh = some (false, s₁)
    ∧ Prog.runAll (Command.run 129) [.cd (some (ascii "D")), .mount (ascii "F")] s₁ = some ((), s)
    ∧ s.sdFat = 1 ∧ Reset s (cycled s) ∧ startup 129 (cycled s) = some (b, t) ∧ t.sdFat = 0 := by
  obtain ⟨s₁, hboot, hvolume⟩ := fresh_startup
  obtain ⟨s, hmount, hmode, -⟩ := mount_f (s := { s₁ with volume := inDir }) rfl
  have hrun : Prog.runAll (Command.run 129) [.cd (some (ascii "D")), .mount (ascii "F")] s₁
      = some ((), s) := by
    have hcd : Command.run 129 (.cd (some (ascii "D"))) s₁
        = some ((), { s₁ with volume := inDir }) := cd_d hvolume
    have hm : Command.run 129 (.mount (ascii "F")) { s₁ with volume := inDir } = some ((), s) :=
      hmount
    rw [Prog.runAll, Prog.bind_of_run hcd, Prog.runAll, Prog.bind_of_run hm]
    rfl
  obtain ⟨u, ⟨-, hrom⟩, hconf⟩ := startup_sameStore hboot
  obtain ⟨hrec, himage⟩ := run_recorded (configure_recorded (hrom.symm ▸ fresh_works) hconf) hrun
  have himage' : s.card.image = dirImage := by
    rw [himage, State.card, hvolume]
    rfl
  have hreset : Reset s (cycled s) := ⟨himage'.symm, Option.some_ne_none true, rfl, hrec.works, rfl⟩
  obtain ⟨b, t, ht, hmounts⟩ := reset_remounts 129 (by decide)
    (himage'.symm ▸ dirImage_fat16) hrec rfl (by rw [hmode]; decide) hreset
  have hnone : rootFile s.card.image (decide ((cycled s).volume.hit 0 0)) (ascii "F") = none := by
    have hfresh : decide ((cycled s).volume.hit 0 0) = false := rfl
    rw [himage', hfresh]
    decide +kernel
  rw [hnone] at hmounts
  exact ⟨s₁, s, b, t, hboot, hrun, hmode, hreset, ht, hmounts⟩

end Machine

end CpMega88
