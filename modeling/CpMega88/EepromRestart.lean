import CpMega88.EepromImage
import Mathlib.Data.List.GetD

/-!
# The EEPROM across a restart

What one process has written and the next one reads, for the POSIX and the
UEFI backends. The UEFI backend (`eeprom_uefi.c`) returns 0 from
`eeprom_load` as soon as a file is open, so it never reads the file: over
it `eeprom_read` returns FFh whatever the file holds. The POSIX backend
writes the whole image after each change and loads it again.
-/

namespace CpMega88

open Bytes Splice

namespace Eeprom

/-! ## UEFI -/

/-- `EFI\cpmega88\eeprom.img` and `eeprom.img`. -/
inductive EfiFile where
  | main
  | root
deriving DecidableEq

/-- The file protocol of the firmware, over a state `σ` of its own and
handles `η`. A call that gives nothing has ended with an error. -/
structure EfiProtocol (σ η : Type) where
  /-- `Open` on `efi_fs`, with `EFI_FILE_MODE_CREATE` or without. -/
  openFile : EfiFile → Bool → σ → Option (η × σ)
  /-- `Read`, of `EEPROM_SIZE` bytes. -/
  readFile : η → (Nat → Byte) → σ → Option ((Nat → Byte) × σ)
  /-- `Write`, of `EEPROM_SIZE` bytes. -/
  writeFile : η → (Nat → Byte) → σ → Option σ
  setPosition : η → Nat → σ → Option σ
  /-- What a restart of the machine makes of the state. -/
  restart : σ → σ

/-- `Open` with CREATE opens an existing file or makes one. -/
def EfiProtocol.Creates {σ η : Type} (p : EfiProtocol σ η) : Prop :=
  ∀ name st, (p.openFile name true st).isSome = true

/-- The firmware's state, and `eep_fp`. -/
structure Efi (σ η : Type) where
  firmware : σ
  eepFp : Option η

section Uefi

variable {σ η : Type} (p : EfiProtocol σ η)

/-- `eeprom_uefi.c`. -/
def uefi : Backend (Efi σ η) where
  load buffer e :=
    match p.openFile .main true e.firmware with
    | some (fp, st) => ((0, buffer), ⟨st, some fp⟩)
    | none =>
      match p.openFile .root false e.firmware with
      | some (fp, st) => ((0, buffer), ⟨st, some fp⟩)
      | none =>
        match e.eepFp.bind fun fp => p.readFile fp buffer e.firmware with
        | some (buffer, st) => ((0, buffer), { e with firmware := st })
        | none => ((eepromSize, buffer), e)
  flush buffer e :=
    match e.eepFp with
    | none => e
    | some fp =>
      match p.setPosition fp 0 e.firmware with
      | some st => { e with firmware := (p.writeFile fp buffer st).getD st }
      | none => e

/-- A new process has no handle. -/
def Efi.restart (e : Efi σ η) : Efi σ η := ⟨p.restart e.firmware, none⟩

variable {p}

/-- A load fills nothing, and says so. -/
theorem uefi_load (hp : p.Creates) (buffer : Nat → Byte) (e : Efi σ η) :
    ((uefi p).load buffer e).1 = (0, buffer) := by
  obtain ⟨opened, hopen⟩ := Option.isSome_iff_exists.mp (hp .main e.firmware)
  unfold uefi
  simp only [hopen]

theorem uefi_loaded (hp : p.Creates) {i : Image (Efi σ η)} (h : i.loaded = 0) (ops : List Op) :
    ((uefi p).run i ops).loaded = 0 := by
  induction ops generalizing i with
  | nil => exact h
  | cons op rest ih =>
      refine ih ?_
      have hensure : ((uefi p).ensure i).loaded = 0 := by
        unfold Backend.ensure
        rw [if_neg (not_not.mpr h), uefi_load hp]
      cases op <;> exact hensure

theorem uefi_read (hp : p.Creates) {i : Image (Efi σ η)} (h : i.loaded = 0) {a : Word}
    (ha : a.toNat < eepromSize) : ((uefi p).read a i).1 = 0xff := by
  rw [(uefi p).read_eq, if_neg (not_not.mpr h)]
  unfold Backend.filled
  rw [uefi_load hp]
  exact splice_in (Nat.zero_le _) (by omega)

end Uefi

/-! ## POSIX -/

/-- `eeprom.img` can be written, or made if there is none. -/
def Rom.Usable (e : Rom) : Prop :=
  match e.file with
  | some _ => e.writable = true
  | none => e.creatable = true

/-- A new process has no open file. -/
def Rom.restart (e : Rom) : Rom := { e with fp := none }

/-- The file is open for writing. -/
def Rom.Open (e : Rom) : Prop :=
  (e.fp = some .update ∨ e.fp = some .create) ∧ e.file.isSome = true

/-- The file holds the image. -/
def Image.Kept (i : Image Rom) : Prop :=
  ∃ bytes, i.backend.file = some bytes ∧ eepromSize ≤ bytes.length
    ∧ ∀ a < eepromSize, bytes.getD a 0 = i.buffer a

/-- A flush to an open file keeps the image in it. -/
theorem Rom.Open.flush {e : Rom} (h : e.Open) : (flush e).2.Open
    ∧ ∃ bytes, (flush e).2.file = some bytes ∧ eepromSize ≤ bytes.length
      ∧ ∀ a < eepromSize, bytes.getD a 0 = e.buffer a := by
  obtain ⟨buffer, loaded, fp, file, writable, creatable, trail⟩ := e
  obtain ⟨hfp, hfile⟩ := h
  obtain ⟨bytes, rfl⟩ := Option.isSome_iff_exists.mp hfile
  have hbytes : ∀ a < eepromSize,
      ((List.range eepromSize).map buffer ++ bytes.drop eepromSize).getD a 0 = buffer a := by
    intro a ha
    rw [List.getD_append _ _ _ _ (by simpa using ha)]
    simp [List.getD_eq_getElem?_getD, ha]
  have hlength : eepromSize
      ≤ ((List.range eepromSize).map buffer ++ bytes.drop eepromSize).length := by
    rw [List.length_append, List.length_map, List.length_range]
    exact Nat.le_add_right _ _
  rcases hfp with rfl | rfl
  · exact ⟨⟨.inl rfl, rfl⟩, _, rfl, hlength, hbytes⟩
  · exact ⟨⟨.inr rfl, rfl⟩, _, rfl, hlength, hbytes⟩

/-- The first access opens the file for writing, or one before it has. -/
def Image.Writes (i : Image Rom) : Prop :=
  i.backend.Open ∨ i.loaded = 0 ∧ i.backend.fp = none ∧ i.backend.Usable

theorem Rom.Usable.fopen {e : Rom} (h : e.Usable) :
    ((fopen e).1 = some .update ∨ (fopen e).1 = some .create) ∧ (fopen e).2.isSome = true := by
  unfold Rom.Usable at h
  unfold Eeprom.fopen
  cases hfile : e.file with
  | none =>
      rw [hfile] at h
      simp [show e.creatable = true from h]
  | some bytes =>
      rw [hfile] at h
      simp [show e.writable = true from h]

theorem Image.Writes.ensure {i : Image Rom} (h : i.Writes) : (posix.ensure i).backend.Open := by
  unfold Backend.ensure
  rcases h with h | ⟨hloaded, hnone, husable⟩
  · split_ifs with hloaded
    · exact h
    · have hopen : i.backend.fp.isSome = true := by rcases h.1 with h | h <;> rw [h] <;> rfl
      have hload := load_open (e := { i.backend with buffer := i.buffer }) hopen
      show (load { i.backend with buffer := i.buffer }).2.Open
      rw [hload]
      exact h
  · rw [if_neg (not_not.mpr hloaded)]
    have hload := load_first (e := { i.backend with buffer := i.buffer }) hnone
    have hfopen : (fopen { i.backend with buffer := i.buffer }) = fopen i.backend := rfl
    show (load { i.backend with buffer := i.buffer }).2.Open
    unfold Rom.Open
    rw [hload.1, hload.2, hfopen]
    exact husable.fopen

theorem Image.Writes.step {i : Image Rom} (h : i.Writes) (op : Op) :
    (posix.step i op).backend.Open := by
  cases op with
  | write addr data =>
      have hopen := h.ensure
      exact (Rom.Open.flush (e := { (posix.ensure i).backend with
        buffer := Function.update (posix.ensure i).buffer addr.toNat data }) hopen).1
  | read addr => exact h.ensure

/-- A write keeps the image in the file. -/
theorem Image.Writes.kept {i : Image Rom} (h : i.Writes) (addr : Word) (data : Byte) :
    (posix.write addr data i).Kept := by
  have hopen := h.ensure
  exact (Rom.Open.flush (e := { (posix.ensure i).backend with
    buffer := Function.update (posix.ensure i).buffer addr.toNat data }) hopen).2

/-- A read leaves it there. -/
theorem Image.Kept.read {i : Image Rom} (h : i.Kept) (hopen : i.backend.fp.isSome = true)
    (addr : Word) : (posix.read addr i).2.Kept := by
  show (posix.ensure i).Kept
  unfold Backend.ensure
  split_ifs with hloaded
  · exact h
  · have hload := load_open (e := { i.backend with buffer := i.buffer }) hopen
    obtain ⟨bytes, hfile, hlength, hbytes⟩ := h
    refine ⟨bytes, ?_, hlength, ?_⟩
    · show (load { i.backend with buffer := i.buffer }).2.file = some bytes
      rw [hload]
      exact hfile
    · show ∀ a < eepromSize, _ = posix.filled i.buffer i.backend a
      rw [posix_filled_open hopen]
      exact hbytes

theorem posix_run_writes {e : Rom} (hfp : e.fp = none) (h : e.Usable) (ops : List Op) :
    (posix.run (fresh e) ops).Writes := by
  induction ops using List.reverseRecOn with
  | nil => exact .inr ⟨rfl, hfp, h⟩
  | append_singleton ops op ih =>
      rw [posix.run_append]
      exact .inl (ih.step op)

/-- After a session with a write in it the file holds the image. -/
theorem posix_run_kept {e : Rom} (hfp : e.fp = none) (h : e.Usable) {ops : List Op} {a : Word}
    (hwritten : written ops a ≠ none) : (posix.run (fresh e) ops).Kept := by
  induction ops using List.reverseRecOn with
  | nil => exact absurd rfl hwritten
  | append_singleton ops op ih =>
      have hwrites := posix_run_writes hfp h ops
      rw [posix.run_append]
      cases op with
      | write addr data => exact hwrites.kept addr data
      | read addr =>
          rw [written_read] at hwritten
          have hne : ops ≠ [] := by
            rintro rfl
            exact hwritten rfl
          have hopen : (fopen e).1.isSome = true := by
            rcases h.fopen.1 with hopen | hopen <;> rw [hopen] <;> rfl
          exact (ih hwritten).read (posix_run_open hfp hopen hne) addr

/-! ## The round trip -/

/-- What was last written to an address in one process is read there in
the next, after any reads. -/
def Survives {β : Type} (b : Backend β) (restart : β → β) (s : β) (ops : List Op) : Prop :=
  ∀ a v, written ops a = some v → ∀ reads : List Word, (∀ r ∈ reads, r.toNat < eepromSize) →
    (b.read a (b.run (fresh (restart (b.run (fresh s) ops).backend)) (reads.map .read))).1 = v

theorem written_reads (reads : List Word) (a : Word) : written (reads.map .read) a = none := by
  induction reads using List.reverseRecOn with
  | nil => rfl
  | append_singleton reads r ih =>
      rw [List.map_append]
      exact (written_read _ r a).trans ih

theorem written_inRange {ops : List Op} (h : InRange ops) {a : Word}
    (hwritten : written ops a ≠ none) : a.toNat < eepromSize := by
  induction ops using List.reverseRecOn with
  | nil => exact absurd rfl hwritten
  | append_singleton ops op ih =>
      have hops : InRange ops := fun o ho => h o (List.mem_append_left _ ho)
      cases op with
      | write addr data =>
          rw [written_write] at hwritten
          split_ifs at hwritten with heq
          · rw [← heq]
            exact h _ (List.mem_append_right _ (List.mem_singleton_self _))
          · exact ih hops hwritten
      | read addr =>
          rw [written_read] at hwritten
          exact ih hops hwritten

theorem load_kept {e : Rom} {bytes : List Byte} (hfp : e.fp = none) (hfile : e.file = some bytes)
    (hlength : eepromSize ≤ bytes.length) :
    load e = (eepromSize, { e with
      fp := (fopen e).1
      buffer := splice e.buffer (fun i => bytes.getD i 0) 0 eepromSize }) := by
  obtain ⟨buffer, loaded, fp, file, writable, creatable, trail⟩ := e
  cases hfp
  cases hfile
  have hrun : load ⟨buffer, loaded, none, some bytes, writable, creatable, trail⟩
      = (min eepromSize bytes.length, ⟨splice buffer (fun i => bytes.getD i 0) 0
        (min eepromSize bytes.length), loaded,
        (fopen ⟨buffer, loaded, none, some bytes, writable, creatable, trail⟩).1, some bytes,
        writable, creatable, trail⟩) := by
    cases writable <;> rfl
  rw [hrun, Nat.min_eq_left hlength]

theorem posix_survives {e : Rom} {ops : List Op} (hfp : e.fp = none) (h : e.Usable)
    (hops : InRange ops) : Survives posix Rom.restart e ops := by
  intro a v hwritten reads hreads
  have ha := written_inRange hops (by rw [hwritten]; nofun)
  have hne : ops ≠ [] := by
    rintro rfl
    cases hwritten
  have hopen : (fopen e).1.isSome = true := by
    rcases h.fopen.1 with hopen | hopen <;> rw [hopen] <;> rfl
  -- the image of the old process
  have hbuffer := ((posix_stable_iff hfp).mpr hopen).isArray.buffer hops hne ha
  rw [hwritten] at hbuffer
  obtain ⟨bytes, hfile, hlength, hbytes⟩ :=
    posix_run_kept hfp h (a := a) (by rw [hwritten]; nofun)
  -- and of the new one
  generalize (posix.run (fresh e) ops).backend = e' at hfile
  have hopen' : (fopen e'.restart).1.isSome = true := by
    unfold fopen Rom.restart
    rw [hfile]
    cases e'.writable <;> rfl
  have hread := ((posix_stable_iff rfl).mpr hopen').isArray (reads.map .read) a ?_ ha
  · rw [hread, written_reads]
    have hload := load_kept (e := { e'.restart with buffer := fun _ => 0 }) rfl hfile hlength
    show posix.loadedByte e'.restart a = v
    unfold Backend.loadedByte posix
    simp only [hload]
    rw [if_pos ha, splice_in (Nat.zero_le _) (by omega), Nat.sub_zero, hbytes _ ha]
    exact hbuffer
  · intro op hop
    obtain ⟨r, hr, rfl⟩ := List.mem_map.mp hop
    exact hreads r hr

/-! ## Either backend -/

variable {σ η : Type}

/-- A backend, and the state of its files. -/
inductive Store (σ η : Type) where
  | posix (e : Rom)
  | uefi (p : EfiProtocol σ η) (e : Efi σ η)

/-- No process has the file open, and it can be written or made; over UEFI
`Open` with CREATE gives one. -/
def Store.Ready : Store σ η → Prop
  | .posix e => e.fp = none ∧ e.Usable
  | .uefi p _ => p.Creates

/-- What the calls of one process write is read in the next. -/
def Store.Survives (ops : List Op) : Store σ η → Prop
  | .posix e => Eeprom.Survives Eeprom.posix Rom.restart e ops
  | .uefi p e => Eeprom.Survives (Eeprom.uefi p) (Efi.restart p) e ops

/-- The backend of `eeprom_uefi.c`. -/
def Store.isUefi : Store σ η → Prop
  | .posix _ => False
  | .uefi _ _ => True

theorem uefi_survives_iff {p : EfiProtocol σ η} (hp : p.Creates) {e : Efi σ η} {ops : List Op}
    (hops : InRange ops) :
    Survives (uefi p) (Efi.restart p) e ops ↔ ∀ a v, written ops a = some v → v = 0xff := by
  constructor
  · intro h a v hwritten
    have ha := written_inRange hops (by rw [hwritten]; exact Option.some_ne_none v)
    rw [← h a v hwritten [] fun r hr => absurd hr List.not_mem_nil]
    exact uefi_read hp rfl ha
  · intro hff a v hwritten reads _
    have ha := written_inRange hops (by rw [hwritten]; exact Option.some_ne_none v)
    rw [hff a v hwritten]
    exact uefi_read hp (uefi_loaded hp rfl _) ha

/-- What is written survives over the POSIX backend, and over the UEFI
backend where it is FFh. -/
theorem survives_iff (store : Store σ η) (ops : List Op) (hready : store.Ready)
    (hops : InRange ops) : store.Survives ops
      ↔ ¬store.isUefi ∨ ∀ a v, written ops a = some v → v = 0xff := by
  cases store with
  | posix e =>
      have hposix : (Store.posix e : Store σ η).Survives ops :=
        posix_survives hready.1 hready.2 hops
      exact ⟨fun _ => .inl id, fun _ => hposix⟩
  | uefi p e =>
      have huefi : (Store.uefi p e).isUefi := trivial
      have hiff : (Store.uefi p e).Survives ops ↔ ∀ a v, written ops a = some v → v = 0xff :=
        uefi_survives_iff hready hops
      rw [hiff]
      exact ⟨.inr, fun h => h.resolve_left fun hno => hno huefi⟩

/-! ## A volume with both files -/

/-- The contents of the two files, and the handles given out, each with
its file and its position. -/
structure EfiVolume where
  files : EfiFile → Option (List Byte)
  handles : List (EfiFile × Nat)

/-- An existing file is opened, and with CREATE an empty one made. -/
def EfiVolume.openFile (name : EfiFile) (create : Bool) (v : EfiVolume) : Option (Nat × EfiVolume) :=
  let opened : EfiVolume := { v with handles := v.handles ++ [(name, 0)] }
  match v.files name with
  | some _ => some (v.handles.length, opened)
  | none =>
    if create then
      some (v.handles.length, { opened with files := Function.update v.files name (some []) })
    else none

def EfiVolume.readFile (fp : Nat) (buffer : Nat → Byte) (v : EfiVolume) :
    Option ((Nat → Byte) × EfiVolume) := do
  let (name, pos) ← v.handles[fp]?
  let bytes ← v.files name
  let n := min eepromSize (bytes.length - pos)
  return (splice buffer (fun i => bytes.getD (pos + i) 0) 0 n,
    { v with handles := v.handles.set fp (name, pos + n) })

def EfiVolume.writeFile (fp : Nat) (buffer : Nat → Byte) (v : EfiVolume) : Option EfiVolume := do
  let (name, pos) ← v.handles[fp]?
  let bytes ← v.files name
  return ⟨Function.update v.files name (some (bytes.take pos ++ (List.range eepromSize).map buffer
    ++ bytes.drop (pos + eepromSize))), v.handles.set fp (name, pos + eepromSize)⟩

def EfiVolume.setPosition (fp : Nat) (pos : Nat) (v : EfiVolume) : Option EfiVolume :=
  v.handles[fp]?.map fun handle => { v with handles := v.handles.set fp (handle.1, pos) }

/-- The firmware over such a volume. -/
def efiVolume : EfiProtocol EfiVolume Nat where
  openFile := EfiVolume.openFile
  readFile := EfiVolume.readFile
  writeFile := EfiVolume.writeFile
  setPosition := EfiVolume.setPosition
  restart v := { v with handles := [] }

theorem efiVolume_creates : efiVolume.Creates := by
  intro name v
  show (EfiVolume.openFile name true v).isSome = true
  unfold EfiVolume.openFile
  cases v.files name <;> rfl

/-- A file of three bytes over the POSIX backend, and none yet over
UEFI, where all that is written is FFh. -/
theorem survives_short :
    (Store.posix ⟨fun _ => 0, 0, none, some [0x88, 0, 0], true, true, []⟩ :
      Store EfiVolume Nat).Survives [.write 16 0x88, .read 0]
    ∧ (Store.uefi efiVolume ⟨⟨fun _ => none, []⟩, none⟩).Survives
      [.write 16 0x88, .write 16 0xff] := by
  have hready : (Store.posix ⟨fun _ => 0, 0, none, some [0x88, 0, 0], true, true, []⟩ :
      Store EfiVolume Nat).Ready := ⟨rfl, rfl⟩
  have hops : InRange [.write 16 0x88, .read 0] := by simp [InRange, Op.addr, eepromSize]
  have hops' : InRange [.write 16 0x88, .write 16 0xff] := by simp [InRange, Op.addr, eepromSize]
  have hready' : (Store.uefi efiVolume ⟨⟨fun _ => none, []⟩, none⟩).Ready := efiVolume_creates
  refine ⟨(survives_iff _ _ hready hops).mpr (.inl id),
    (survives_iff _ _ hready' hops').mpr (.inr fun a v hv => ?_)⟩
  by_cases ha : (16 : Word) = a
  · simp only [written, List.foldl, ha, if_true] at hv
    exact (Option.some.inj hv).symm
  · simp only [written, List.foldl, ha, if_false] at hv
    cases hv

/-- Over UEFI the mark 88h that is written is read back as FFh, although
the file holds it. -/
theorem uefi_forgets : ∃ (e : Efi EfiVolume Nat) (ops : List Op), InRange ops
    ∧ written ops 0 = some 0x88 ∧ ¬(Store.uefi efiVolume e).Survives ops := by
  refine ⟨⟨⟨fun _ => none, []⟩, none⟩, [.write 0 0x88],
    by simp [InRange, Op.addr, eepromSize], rfl, ?_⟩
  intro h
  have hread := (uefi_read efiVolume_creates (i := fresh _) (a := 0) rfl (by decide)).symm.trans
    (h 0 0x88 rfl [] fun r hr => absurd hr List.not_mem_nil)
  exact absurd hread (by decide)

end Eeprom

end CpMega88
