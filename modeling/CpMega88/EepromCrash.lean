import CpMega88.Boot
import CpMega88.DelimitedCompare
import CpMega88.EepromImage
import CpMega88.Lib.CellWrites
import CpMega88.Monitor

/-!
# The calls of `eeprom_write`

What `machine_boot` and `mount` do to the EEPROM, as the sequence of their
`eeprom_write` calls (`configure_calls`, `mount_calls`), in the order in
which they are made. Byte 0 marks an initialised EEPROM, byte 16 a file
name stored from byte 17 on; both are set after what they vouch for.
-/

namespace CpMega88

open Bytes CellWrites

namespace Eeprom

/-! ## The cells behind the image -/

/-- The next access finds the file open, or opens it. -/
def Rom.Works (e : Rom) : Prop :=
  e.fp.isSome = true ∨ e.loaded = 0 ∧ e.fp = none ∧ (fopen e).1.isSome = true

def Rom.cells (e : Rom) : Word → Byte := fun a => (read a e).1

/-- A state as an image over the POSIX backend. -/
def Rom.image (e : Rom) : Image Rom := ⟨e.buffer, e.loaded, e⟩

theorem Rom.cells_eq (e : Rom) (a : Word) : e.cells a = (posix.read a e.image).1 :=
  congrArg Prod.fst (read_rom a e.image)

theorem Rom.cells_logged (e : Rom) : e.logged.cells = e.cells := by
  obtain ⟨buffer, loaded, fp, file, writable, creatable, trail⟩ := e
  cases loaded with
  | succ n => rfl
  | zero =>
      cases fp with
      | some mode => rfl
      | none =>
          cases file with
          | none => cases creatable <;> rfl
          | some bytes => cases writable <;> rfl

/-- Over an open file the image holds the cells. -/
theorem cells_open {i : Image Rom} (h : i.backend.fp.isSome = true) (a : Word) :
    i.rom.cells a = i.buffer a.toNat := by
  have hread : i.rom.cells a = (posix.read a i).1 := congrArg Prod.fst (read_rom a i)
  rw [hread, posix.read_eq]
  split_ifs
  · rfl
  · rw [posix_filled_open h]

theorem Rom.Works.opened {e : Rom} (h : e.Works) : Opened e.image := h

theorem works_of_open {i : Image Rom} (h : i.backend.fp.isSome = true) : i.rom.Works := .inl h

theorem Rom.Works.read {e : Rom} (h : e.Works) (addr : Word) :
    (read addr e).2.Works ∧ (read addr e).2.cells = e.cells := by
  have hrun : (Eeprom.read addr e).2 = (posix.read addr e.image).2.rom :=
    congrArg Prod.snd (read_rom addr e.image)
  have hopen : (posix.read addr e.image).2.backend.fp.isSome = true := h.opened.step (.read addr)
  rw [hrun]
  refine ⟨works_of_open hopen, funext fun a => ?_⟩
  rw [cells_open hopen, posix.buffer_read, e.cells_eq]

theorem ensure_trail (e : Rom) : (ensure e).2.trail = e.trail := by
  have hload : ∀ e : Rom, (load e).2.trail = e.trail := by
    rintro ⟨buffer, loaded, fp, file, writable, creatable, trail⟩
    cases fp with
    | some mode => rfl
    | none =>
        cases file with
        | none => cases creatable <;> rfl
        | some bytes => cases writable <;> rfl
  rw [ensure, Runs.get_bind_run]
  split_ifs
  · exact hload e
  · rfl

theorem read_trail (addr : Word) (e : Rom) : (read addr e).2.trail = e.trail := ensure_trail e

theorem flush_trail (e : Rom) : (flush e).2.trail = e.trail := by
  rw [flush, Runs.modify_run]
  dsimp only
  split <;> rfl

/-! ## Sequences of calls -/

/-- Calls of `eeprom_write`, by address and data. -/
abbrev Calls := List (Word × Byte)

/-- Between the states these calls have been made, in this order, and no
other ones. -/
structure Rom.Made (calls : Calls) (e e' : Rom) : Prop where
  works : e'.Works
  cells : e'.cells = apply calls e.cells
  trail : e'.trail = e.trail ++ states calls e.cells

theorem Rom.Works.made_nil {e : Rom} (h : e.Works) : e.Made [] e :=
  ⟨h, rfl, (List.append_nil _).symm⟩

theorem Rom.Made.append {calls more : Calls} {e e' e'' : Rom} (h : Made calls e e')
    (h' : Made more e' e'') : Made (calls ++ more) e e'' := by
  refine ⟨h'.works, ?_, ?_⟩
  · rw [h'.cells, h.cells, apply_append]
  · rw [h'.trail, h.trail, h.cells, states_append, List.append_assoc]

theorem Rom.Works.made_read {e : Rom} (h : e.Works) (addr : Word) :
    e.Made [] (Eeprom.read addr e).2 :=
  ⟨(h.read addr).1, (h.read addr).2, (read_trail addr e).trans (List.append_nil _).symm⟩

theorem Rom.Works.write {e : Rom} (h : e.Works) (addr : Word) (data : Byte) :
    e.Made [(addr, data)] (Eeprom.write addr data e).2 := by
  obtain ⟨i, hi⟩ : ∃ i, i = posix.write addr data e.image := ⟨_, rfl⟩
  have hrun : (Eeprom.write addr data e).2 = i.rom.logged := by
    rw [hi]
    exact write_rom addr data e.image
  have hopen : i.backend.fp.isSome = true := by
    rw [hi]
    exact h.opened.step (.write addr data)
  have hbuffer : (fun a : Word => i.buffer a.toNat) = Function.update e.cells addr data := by
    funext a
    rw [hi, posix.buffer_write, Function.update_apply, e.cells_eq]
    exact if_congr eq_comm rfl rfl
  have htrail : i.backend.trail = e.trail := by
    have hensure : (posix.ensure e.image).backend.trail = (ensure e).2.trail :=
      (congrArg Rom.trail (ensure_rom e.image)).symm
    rw [hi]
    exact (flush_trail _).trans (hensure.trans (ensure_trail e))
  rw [hrun]
  refine ⟨works_of_open hopen, ?_, ?_⟩
  · rw [i.rom.cells_logged, apply_cons, apply_nil, ← hbuffer]
    exact funext fun a => cells_open hopen a
  · show i.backend.trail ++ [fun a => i.buffer a.toNat] = _
    rw [htrail, hbuffer]
    rfl

def perform (calls : Calls) (e : Rom) : Rom :=
  calls.foldl (fun e c => (write c.1 c.2 e).2) e

theorem perform_append (calls more : Calls) (e : Rom) :
    perform (calls ++ more) e = perform more (perform calls e) := List.foldl_append

theorem Rom.Works.perform {e : Rom} (h : e.Works) (calls : Calls) :
    e.Made calls (perform calls e) := by
  induction calls generalizing e with
  | nil => exact h.made_nil
  | cons c calls ih =>
      have hfirst := h.write c.1 c.2
      exact hfirst.append (ih hfirst.works)

/-- `eeprom_write_string`. -/
def stringCalls : Word → List Byte → Calls
  | addr, [] => [(addr, 0)]
  | addr, c :: s => (addr, c) :: if c = 0 then [] else stringCalls (addr + 1) s

theorem writeString_calls (addr : Word) (s : List Byte) (e : Rom) :
    (writeString addr s e).2 = perform (stringCalls addr s) e := by
  induction s generalizing addr e with
  | nil => rfl
  | cons c s ih =>
      by_cases hc : c = 0
      · rw [stringCalls, if_pos hc, writeString, Runs.bind_run, if_pos hc]
        rfl
      · rw [stringCalls, if_neg hc, writeString, Runs.bind_run, if_neg hc, ih]
        rfl

end Eeprom

namespace Machine

open Eeprom (Rom Calls perform stringCalls)
open Fat (Volume)

/-! ## Names -/

/-- The C string at the head of a list. -/
def cstr (s : List Byte) : List Byte := s.takeWhile (· ≠ 0)

theorem cstr_cons (c : Byte) (s : List Byte) :
    cstr (c :: s) = if c = 0 then [] else c :: cstr s := by
  rw [cstr, List.takeWhile_cons]
  by_cases hc : c = 0 <;> simp [hc, cstr]

theorem cstr_cstr (s : List Byte) : cstr (cstr s) = cstr s := by
  induction s with
  | nil => rfl
  | cons c s ih =>
      rw [cstr_cons]
      split_ifs with hc
      · rfl
      · rw [cstr_cons, if_neg hc, ih]

/-- With NUL as the delimiter, `strdcmp` compares the strings. -/
theorem strdcmp_nul_iff (s1 s2 : List Byte) : strdcmp s1 s2 0 = 0 ↔ cstr s1 = cstr s2 := by
  have hfield (s : List Byte) : CharArray.field 0 s = cstr s := by
    simp only [CharArray.field, cstr, and_self]
  rw [strdcmp_eq_zero_iff, hfield, hfield]

theorem nameAt_length (buffer : Nat → Byte) (off : Word) (left i : Nat) :
    (Fat.nameAt buffer off left i).length ≤ left + if i ≤ 8 then 1 else 0 := by
  induction left generalizing i with
  | zero => exact Nat.zero_le _
  | succ left ih =>
      have := ih (i + 1)
      rw [Fat.nameAt]
      split_ifs at this ⊢ <;> first | omega | (simp only [List.length_cons]; omega)

/-- A name that some directory entry has. -/
def Opens (name : List Byte) : Prop := ∃ v : Volume, strdcmp name v.entryName 0 = 0

theorem Opens.length_le {name : List Byte} (h : Opens name) : (cstr name).length ≤ 12 := by
  obtain ⟨v, hv⟩ := h
  rw [(strdcmp_nul_iff _ _).mp hv]
  exact (List.takeWhile_prefix _).length_le.trans (nameAt_length v.card.buffer v.entryOff 11 0)

/-! ## The calls made -/

/-- The loop of `machine_boot`, and the mark. -/
def initCalls : Calls := (List.range 256).map (fun i => (BitVec.ofNat 16 i, 0)) ++ [(0, 0x88)]

/-- The end of `mount`. -/
def mountCalls (name : List Byte) : Calls := guarded 16 0 0x88 (stringCalls 17 name)

theorem noted_calls (name : List Byte) (rom : Rom) :
    noted name rom = perform (mountCalls name) rom := by
  rw [mountCalls, guarded, Eeprom.perform_append, noted, Eeprom.writeString_calls]
  rfl

/-- A `mount` either finds nothing, or records the name it was given. -/
inductive MountCalls (name : List Byte) : Option (List Byte) → Calls → Prop
  | missing : MountCalls name none []
  | found : Opens name → MountCalls name (some (cstr name)) (mountCalls name)

/-- The string stored from `addr` on, if it fits a buffer of `n` bytes. -/
def storedName (cells : Word → Byte) : Nat → Word → Option (List Byte)
  | 0, _ => none
  | n + 1, addr =>
    if cells addr = 0 then some []
    else (storedName cells n (addr + 1)).map (cells addr :: ·)

/-- `machine_boot` initialises the EEPROM, or finds no name in it, or
mounts the one it finds (in vain, or not at all if `sd_fat` is 0). -/
inductive BootCalls (cells : Word → Byte) : Option (List Byte) → Calls → Prop
  | init : cells 0 ≠ 0x88 → BootCalls cells none initCalls
  | plain : cells 0 = 0x88 → cells 16 ≠ 0x88 → BootCalls cells none []
  | named {name : List Byte} {done : Option (List Byte)} {calls : Calls} :
      cells 0 = 0x88 → cells 16 = 0x88 → storedName cells 13 17 = some name →
      MountCalls name done calls → BootCalls cells done calls

theorem onEeprom_run {α : Type} (x : Eeprom.EepromM α) (s : State) :
    onEeprom x s = some ((x s.eeprom).1, { s with eeprom := (x s.eeprom).2 }) := rfl

/-- Directory requests leave the EEPROM alone. -/
theorem onVolume_eeprom {α : Type} {x : Fat.FatM α} {s s' : State} {a : α}
    (h : onVolume x s = some (a, s')) : s'.eeprom = s.eeprom := by
  obtain ⟨v, -, rfl⟩ := onVolume_eq_some.mp h
  rfl

/-- How `mount` ends: it has found nothing, or it has opened an entry of
the name and recorded that. -/
inductive MountEnds (name : List Byte) (s s' : State) : Prop
  | missing : s'.sdFat = 0 → s'.eeprom = s.eeprom → MountEnds name s s'
  | found : s'.sdFat = 1 → Opens name → s'.eeprom = perform (mountCalls name) s.eeprom →
      MountEnds name s s'

theorem mountLoop_ends {fuel left : Nat} {name : List Byte} {s s' : State}
    (h : mountLoop fuel name left s = some ((), s')) : MountEnds name s s' := by
  induction left generalizing s with
  | zero => cases (Prog.failure_run s).symm.trans h
  | succ left ih =>
      rw [mountLoop] at h
      obtain ⟨r, t, hnext, h⟩ := Prog.bind_eq_some.mp h
      have hrom := onVolume_eeprom hnext
      rw [Prog.ite_run] at h
      split_ifs at h with hneg
      · rw [Prog.bind_of_run (putsln_run _ _)] at h
        cases h
        exact .missing rfl hrom
      · rw [Prog.bind_of_run (onVolume_of_run (Fat.fatName_run t.volume)), Prog.ite_run] at h
        split_ifs at h with hname
        · cases ih h with
          | missing hmode hend => exact .missing hmode (hend.trans hrom)
          | found hmode hopens hend =>
              exact .found hmode hopens (hend.trans (congrArg (perform _) hrom))
        · obtain ⟨console, hfound⟩ := mountFound_run name { t with volume := t.volume }
          cases hfound.symm.trans h
          refine .found rfl ⟨t.volume, not_not.mp hname⟩ ?_
          rw [← hrom]
          exact noted_calls name t.eeprom

theorem mount_ends {fuel : Nat} {name : List Byte} {s s' : State}
    (h : mount fuel name s = some ((), s')) : MountEnds name s s' := by
  obtain ⟨console, hrun⟩ := mount_run fuel name s
  rw [hrun] at h
  cases mountLoop_ends h with
  | missing hmode hend => exact .missing hmode hend
  | found hmode hopens hend => exact .found hmode hopens hend

/-- What `mount` writes to the EEPROM. -/
theorem mount_calls {fuel : Nat} {name : List Byte} {s s' : State}
    (h : mount fuel name s = some ((), s')) :
    ∃ done calls, MountCalls name done calls ∧ s'.eeprom = perform calls s.eeprom := by
  cases mount_ends h with
  | missing _ hend => exact ⟨none, [], .missing, hend⟩
  | found _ hopens hend => exact ⟨_, _, .found hopens, hend⟩

theorem onEeprom_bind {α β : Type} (x : Eeprom.EepromM α) (k : α → MachineM β) (s : State) :
    (onEeprom x >>= k) s = k (x s.eeprom).1 { s with eeprom := (x s.eeprom).2 } :=
  Prog.bind_of_run (onEeprom_run x s) k

/-- `eeprom_read_string` reads the string in the cells. -/
theorem readString_run (n : Nat) (addr : Word) {s : State} (h : s.eeprom.Works) :
    ∃ e : Rom, s.eeprom.Made [] e
      ∧ readString n addr s
        = (storedName s.eeprom.cells n addr).map fun name => (name, { s with eeprom := e }) := by
  induction n generalizing addr s with
  | zero => exact ⟨s.eeprom, h.made_nil, rfl⟩
  | succ n ih =>
      obtain ⟨hworks, hcells⟩ := h.read addr
      rw [readString, onEeprom_bind, Prog.ite_run, storedName]
      have hc : (Eeprom.read addr s.eeprom).1 = s.eeprom.cells addr := rfl
      rw [hc]
      by_cases h0 : s.eeprom.cells addr = 0
      · rw [if_pos h0, if_pos h0]
        exact ⟨_, h.made_read addr, rfl⟩
      · obtain ⟨e, hmade, hrun⟩ :=
          ih (addr + 1) (s := { s with eeprom := (Eeprom.read addr s.eeprom).2 }) hworks
        rw [hcells] at hrun
        refine ⟨e, (h.made_read addr).append hmade, ?_⟩
        rw [if_neg h0, if_neg h0, Prog.bind_run, hrun]
        cases storedName s.eeprom.cells n (addr + 1) <;> rfl

theorem eepromInit_run (s : State) :
    eepromInit s = some ((), { s with eeprom := perform initCalls s.eeprom }) := by
  have hloop : ∀ n, Prog.upTo n (fun i => onEeprom (Eeprom.write (BitVec.ofNat 16 i) 0)) s
      = some ((), { s with
        eeprom := perform ((List.range n).map fun i => (BitVec.ofNat 16 i, 0)) s.eeprom }) := by
    intro n
    induction n with
    | zero => rfl
    | succ n ih =>
        rw [Prog.upTo, Prog.bind_of_run ih, List.range_succ, List.map_append,
          Eeprom.perform_append]
        rfl
  rw [eepromInit, Prog.bind_of_run (hloop 256), initCalls, Eeprom.perform_append]
  generalize perform _ s.eeprom = e
  rfl

/-- What the end of `machine_boot` writes to the EEPROM. -/
theorem configure_calls {fuel : Nat} {s s' : State} {b : Bool} (hs : s.eeprom.Works)
    (h : configure fuel s = some (b, s')) :
    ∃ done calls, BootCalls s.eeprom.cells done calls ∧ s.eeprom.Made calls s'.eeprom := by
  obtain ⟨hworks0, hcells0⟩ := hs.read 0
  have hmade0 := hs.made_read 0
  rw [configure, onEeprom_bind, Prog.ite_run] at h
  split_ifs at h with h0
  · have hmade := hmade0.append (hworks0.perform initCalls)
    rw [Prog.bind_of_run (putsln_run _ _), Prog.bind_of_run (eepromInit_run _)] at h
    dsimp only at h
    generalize perform initCalls (Eeprom.read 0 s.eeprom).2 = e at hmade h
    cases h
    exact ⟨none, initCalls, .init h0, hmade⟩
  · have h0' : s.eeprom.cells 0 = 0x88 := not_not.mp h0
    rw [Prog.bind_of_run (putsln_run _ _)] at h
    obtain ⟨_, t, hmount, h⟩ := Prog.bind_eq_some.mp h
    rw [onEeprom_bind] at h
    cases h
    suffices hcalls : ∃ done calls, BootCalls s.eeprom.cells done calls
        ∧ s.eeprom.Made calls t.eeprom by
      obtain ⟨done, calls, hboot, hmade⟩ := hcalls
      have hend := hmade.append (hmade.works.made_read 8)
      rw [List.append_nil] at hend
      exact ⟨done, calls, hboot, hend⟩
    obtain ⟨hworks16, hcells16⟩ := hworks0.read 16
    have hmade16 := hmade0.append (hworks0.made_read 16)
    have hmark : (Eeprom.read 16 (Eeprom.read 0 s.eeprom).2).1 = s.eeprom.cells 16 :=
      congrFun hcells0 16
    rw [remount, onEeprom_bind, hmark, Prog.ite_run] at hmount
    split_ifs at hmount with h16
    · obtain ⟨name, u, hread, hmount⟩ := Prog.bind_eq_some.mp hmount
      obtain ⟨e, hmade, hrun⟩ := readString_run 13 17 (s := { s with
        console := _, eeprom := (Eeprom.read 16 (Eeprom.read 0 s.eeprom).2).2 }) hworks16
      have hsame := hmade16.append hmade
      rw [hrun, Option.map_eq_some_iff] at hread
      obtain ⟨name', hname, hpair⟩ := hread
      cases hpair
      have hstored : storedName s.eeprom.cells 13 17 = some name := by
        rw [← hcells0, ← hcells16]
        exact hname
      rw [Prog.get_bind_run, Prog.ite_run] at hmount
      split_ifs at hmount with hfat
      · obtain ⟨done, calls, hcalls, hend⟩ := mount_calls hmount
        refine ⟨done, calls, .named h0' h16 hstored hcalls, ?_⟩
        rw [hend]
        exact hsame.append (hsame.works.perform calls)
      · cases hmount
        exact ⟨none, [], .named h0' h16 hstored .missing, hsame⟩
    · cases hmount
      exact ⟨none, [], .plain h0' h16, hmade16⟩

/-! ## The stored name -/

theorem stringCalls_range {addr : Word} {s : List Byte}
    (h : addr.toNat + (cstr s).length < 2 ^ 16) {w : Word × Byte} (hw : w ∈ stringCalls addr s) :
    addr.toNat ≤ w.1.toNat := by
  induction s generalizing addr with
  | nil =>
      rw [stringCalls, List.mem_singleton] at hw
      rw [hw]
  | cons c s ih =>
      rw [stringCalls, List.mem_cons] at hw
      rcases hw with rfl | hw
      · exact le_rfl
      · split_ifs at hw with hc
        · cases hw
        · rw [cstr_cons, if_neg hc, List.length_cons] at h
          have hsucc : (addr + 1).toNat = addr.toNat + 1 := toNat_add_one rfl (by omega)
          have hle : (addr + 1).toNat ≤ w.1.toNat := ih (by omega) hw
          omega

/-- The string is there once all its calls are made. -/
theorem storedName_written {addr : Word} {s : List Byte} {n : Nat}
    (hn : (cstr s).length < n) (h : addr.toNat + (cstr s).length < 2 ^ 16) (cells : Word → Byte) :
    storedName (apply (stringCalls addr s) cells) n addr = some (cstr s) := by
  induction s generalizing addr n cells with
  | nil =>
      obtain ⟨n, rfl⟩ := Nat.exists_eq_succ_of_ne_zero (Nat.ne_of_gt hn)
      rw [storedName, if_pos]
      · rfl
      · exact Function.update_self ..
  | cons c s ih =>
      obtain ⟨n, rfl⟩ := Nat.exists_eq_succ_of_ne_zero (Nat.ne_of_gt (Nat.zero_lt_of_lt hn))
      rw [stringCalls, storedName, apply_cons]
      by_cases hc : c = 0
      · rw [if_pos hc, apply_nil, Function.update_self, if_pos hc, cstr_cons, if_pos hc]
      · rw [cstr_cons, if_neg hc, List.length_cons] at hn h
        have hsucc : (addr + 1).toNat = addr.toNat + 1 := toNat_add_one rfl (by omega)
        have hbelow : ∀ w ∈ stringCalls (addr + 1) s, w.1 ≠ addr := by
          rintro w hw rfl
          have := stringCalls_range (by omega) hw
          omega
        rw [if_neg hc, apply_other hbelow, Function.update_self, if_neg hc,
          ih (by omega) (by omega), cstr_cons, if_neg hc]
        rfl

/-- Only the cells of the buffer matter. -/
theorem storedName_congr {cells cells' : Word → Byte} {n : Nat} {addr : Word}
    (h : ∀ i < n, cells (addr + BitVec.ofNat 16 i) = cells' (addr + BitVec.ofNat 16 i)) :
    storedName cells n addr = storedName cells' n addr := by
  induction n generalizing addr with
  | zero => rfl
  | succ n ih =>
      have h0 : cells addr = cells' addr := by
        have := h 0 (Nat.succ_pos n)
        rwa [BitVec.add_zero] at this
      have hrest : storedName cells n (addr + 1) = storedName cells' n (addr + 1) := by
        refine ih fun i hi => ?_
        have := h (i + 1) (Nat.succ_lt_succ hi)
        rwa [Nat.add_comm i 1, BitVec.ofNat_add, ← BitVec.add_assoc] at this
      rw [storedName, storedName, h0, hrest]

/-- Cells below the record do not matter. -/
theorem storedName_update (cells : Word → Byte) {a : Word} (ha : a.toNat < 17) (v : Byte) :
    storedName (Function.update cells a v) 13 17 = storedName cells 13 17 := by
  refine storedName_congr fun i hi => Function.update_of_ne ?_ ..
  rintro rfl
  have hi' : (17#16 + BitVec.ofNat 16 i).toNat = 17 + i := toNat_add_ofNat rfl (by omega)
  exact absurd ha (by rw [show (17 : Word) = 17#16 from rfl, hi']; omega)

/-- The calls of `mount` leave the cells below the mark alone, set the
mark, and store the name. -/
theorem mountCalls_below {name : List Byte} (h : Opens name) {a : Word} (ha : a.toNat < 16)
    (cells : Word → Byte) : apply (mountCalls name) cells a = cells a := by
  refine apply_other (fun w hw => ?_) cells
  have hlen := h.length_le
  rw [mountCalls, guarded, List.mem_append, List.mem_cons, List.mem_singleton] at hw
  rintro rfl
  rcases hw with (rfl | hw) | rfl
  · exact absurd ha (by decide)
  · have hle : 17 ≤ w.1.toNat := stringCalls_range (by simp; omega) hw
    omega
  · exact absurd ha (by decide)

theorem mountCalls_stored {name : List Byte} (h : Opens name) (cells : Word → Byte) :
    storedName (apply (mountCalls name) cells) 13 17 = some (cstr name) := by
  have hlen := h.length_le
  have hcells : apply (mountCalls name) cells = Function.update
      (apply (stringCalls 17 name) (Function.update cells 16 0)) 16 0x88 := by
    rw [mountCalls, guarded, apply_append]
    rfl
  rw [hcells, storedName_update _ (by decide)]
  exact storedName_written (by omega) (by simp; omega) _

end Machine

end CpMega88
