import CpMega88.Eeprom
import CpMega88.Lib.Runs

/-!
# The EEPROM image over any backend

`eeprom_image.c` with `eeprom_load` and `eeprom_flush` as parameters. The
count that `eeprom_load` returns is also the flag that says the image has
been loaded, so a backend that returns 0 is asked again at the next access.
`array_iff` says when the image is an array all the same: when the backend,
handed the array as the calls have made it (`Session`), gives it back. The
POSIX backend does so if it can open its file (`posix_stable_iff`), the
U-Boot backend does not (`uboot_not_array`).
-/

namespace CpMega88

open Bytes Splice

namespace Eeprom

/-- `eeprom_load` and `eeprom_flush`, over the state `β` they keep. A load
returns the number of bytes it has filled. -/
structure Backend (β : Type) where
  load : (Nat → Byte) → β → (Nat × (Nat → Byte)) × β
  flush : (Nat → Byte) → β → β

/-- The static variables of `eeprom_image.c`. -/
structure Image (β : Type) where
  buffer : Nat → Byte
  loaded : Nat
  backend : β

variable {β : Type}

/-- At the start of the program. -/
def fresh (s : β) : Image β := ⟨fun _ => 0, 0, s⟩

namespace Backend

/-- The image after a load: FFh past the bytes filled. -/
def filled (b : Backend β) (buffer : Nat → Byte) (s : β) : Nat → Byte :=
  splice (b.load buffer s).1.2 (fun _ => 0xff) (b.load buffer s).1.1
    (eepromSize - (b.load buffer s).1.1)

def ensure (b : Backend β) (i : Image β) : Image β :=
  if i.loaded ≠ 0 then i
  else ⟨b.filled i.buffer i.backend, (b.load i.buffer i.backend).1.1,
    (b.load i.buffer i.backend).2⟩

def write (b : Backend β) (addr : Word) (data : Byte) (i : Image β) : Image β :=
  let i := b.ensure i
  let buffer := Function.update i.buffer addr.toNat data
  { i with buffer := buffer, backend := b.flush buffer i.backend }

def read (b : Backend β) (addr : Word) (i : Image β) : Byte × Image β :=
  let i := b.ensure i
  (i.buffer addr.toNat, i)

end Backend

/-! ## Sessions -/

/-- A call of `eeprom_write` or `eeprom_read`. -/
inductive Op where
  | write (addr : Word) (data : Byte)
  | read (addr : Word)

def Op.addr : Op → Word
  | .write addr _ | .read addr => addr

def Backend.step (b : Backend β) (i : Image β) : Op → Image β
  | .write addr data => b.write addr data i
  | .read addr => (b.read addr i).2

def Backend.run (b : Backend β) (i : Image β) (ops : List Op) : Image β := ops.foldl b.step i

/-- The addresses are below `EEPROM_SIZE`. -/
def InRange (ops : List Op) : Prop := ∀ op ∈ ops, op.addr.toNat < eepromSize

/-- The value of the last write to `a`. -/
def written (ops : List Op) (a : Word) : Option Byte :=
  ops.foldl (fun v op => match op with
    | .write addr data => if addr = a then some data else v
    | .read _ => v) none

theorem written_write (ops : List Op) (addr a : Word) (data : Byte) :
    written (ops ++ [.write addr data]) a = if addr = a then some data else written ops a := by
  rw [written, List.foldl_append]
  rfl

theorem written_read (ops : List Op) (addr a : Word) :
    written (ops ++ [.read addr]) a = written ops a := by
  rw [written, List.foldl_append]
  rfl

theorem Backend.run_append (b : Backend β) (i : Image β) (ops more : List Op) :
    b.run i (ops ++ more) = b.run (b.run i ops) more := List.foldl_append

/-- The image after a call holds what a read before it would have
returned, but for what the call writes. -/
theorem Backend.buffer_write (b : Backend β) (i : Image β) (addr a : Word) (data : Byte) :
    (b.write addr data i).buffer a.toNat = if addr = a then data else (b.read a i).1 := by
  show Function.update (b.ensure i).buffer addr.toNat data a.toNat = _
  split_ifs with h
  · rw [h, Function.update_self]
  · rw [Function.update_of_ne fun he => h (BitVec.eq_of_toNat_eq he).symm]
    rfl

theorem Backend.buffer_read (b : Backend β) (i : Image β) (addr a : Word) :
    (b.read addr i).2.buffer a.toNat = (b.read a i).1 := rfl

/-! ## The array law -/

/-- The byte of `a` when nothing has been written: the one loaded, or FFh
past what the load has filled. -/
def Backend.loadedByte (b : Backend β) (s : β) (a : Word) : Byte :=
  if a.toNat < (b.load (fun _ => 0) s).1.1 then (b.load (fun _ => 0) s).1.2 a.toNat else 0xff

/-- The image is an array: a read returns what was last written to the
address, or what the session's first access has loaded. -/
def Backend.IsArray (b : Backend β) (s : β) : Prop :=
  ∀ ops a, InRange ops → a.toNat < eepromSize →
    (b.read a (b.run (fresh s) ops)).1 = (written ops a).getD (b.loadedByte s a)

/-! ## What the backend is asked -/

/-- A session as the backend sees it: the array that the calls have made,
the count that the last load returned, and the backend's own state. -/
structure Session (β : Type) where
  array : Nat → Byte
  count : Nat
  backend : β

namespace Backend

/-- The first load fills the array, with FFh past its count. -/
def first (b : Backend β) (s : β) : Session β :=
  let loaded := b.load (fun _ => 0) s
  ⟨fun a => if loaded.1.1 ≤ a ∧ a < eepromSize then 0xff else loaded.1.2 a, loaded.1.1, loaded.2⟩

/-- A further load, made while the counts have been 0, does not touch the
array; what lies behind it may change. -/
def next (b : Backend β) (x : Session β) : Session β :=
  if x.count ≠ 0 then x
  else
    let loaded := b.load x.array x.backend
    ⟨fun a => if a < eepromSize then x.array a else loaded.1.2 a, loaded.1.1, loaded.2⟩

def done (b : Backend β) (x : Session β) : Op → Session β
  | .write addr data =>
    let array := Function.update x.array addr.toNat data
    { x with array := array, backend := b.flush array x.backend }
  | .read _ => x

/-- The session after at least one call. -/
def session (b : Backend β) (s : β) (op : Op) (ops : List Op) : Session β :=
  ops.foldl (fun x op => b.done (b.next x) op) (b.done (b.first s) op)

/-- If there is another load, it gives the array back. -/
def Restores (b : Backend β) (x : Session β) : Prop :=
  x.count = 0 → ∀ a < eepromSize,
    (if a < (b.load x.array x.backend).1.1 then (b.load x.array x.backend).1.2 a else 0xff)
      = x.array a

/-- All loads but the session's first give the array back. -/
def Stable (b : Backend β) (s : β) : Prop :=
  ∀ op ops, InRange (op :: ops) → b.Restores (b.session s op ops)

/-! ## The code's image in such a session -/

theorem filled_of_lt (b : Backend β) (buffer : Nat → Byte) (s : β) {a : Nat}
    (ha : a < eepromSize) : b.filled buffer s a
      = if a < (b.load buffer s).1.1 then (b.load buffer s).1.2 a else 0xff := by
  rw [filled]
  split
  case isTrue hin => exact splice_out (.inl hin)
  case isFalse hpast => exact splice_in (not_lt.mp hpast) (by omega)

theorem filled_of_ge (b : Backend β) (buffer : Nat → Byte) (s : β) {a : Nat}
    (ha : eepromSize ≤ a) : b.filled buffer s a = (b.load buffer s).1.2 a :=
  splice_out (by omega)

/-- The next access leaves the image as it is. -/
def Keeps (b : Backend β) (i : Image β) : Prop :=
  i.loaded = 0 → ∀ a < eepromSize, b.filled i.buffer i.backend a = i.buffer a

theorem restores_iff (b : Backend β) (x : Session β) :
    b.Restores x ↔ b.Keeps ⟨x.array, x.count, x.backend⟩ := by
  refine imp_congr Iff.rfl (forall₂_congr fun a ha => ?_)
  rw [b.filled_of_lt _ _ ha]

/-- The code's static variables are those of the session. -/
def Tracks (i : Image β) (x : Session β) : Prop := i = ⟨x.array, x.count, x.backend⟩

theorem ensure_first (b : Backend β) (s : β) : Tracks (b.ensure (fresh s)) (b.first s) := by
  have hfilled : b.filled (fun _ => 0) s = (b.first s).array := by
    funext a
    rcases lt_or_ge a eepromSize with ha | ha
    · rw [b.filled_of_lt _ _ ha]
      split
      case isTrue hin => exact (if_neg (by omega)).symm
      case isFalse hpast => exact (if_pos ⟨not_lt.mp hpast, ha⟩).symm
    · exact (b.filled_of_ge _ _ ha).trans (if_neg (by omega)).symm
  exact congrArg (Image.mk · _ _) hfilled

theorem ensure_next {b : Backend β} {i : Image β} {x : Session β} (h : Tracks i x)
    (hx : b.Restores x) : Tracks (b.ensure i) (b.next x) := by
  subst h
  rw [Tracks, ensure, next]
  split_ifs with hcount
  · rfl
  · have hkeeps := (b.restores_iff x).mp hx (not_not.mp hcount)
    refine congrArg (Image.mk · _ _) (funext fun a => ?_)
    rcases lt_or_ge a eepromSize with ha | ha
    · exact (hkeeps a ha).trans (if_pos ha).symm
    · exact (b.filled_of_ge _ _ ha).trans (if_neg (by omega)).symm

theorem step_done {b : Backend β} {i : Image β} {x : Session β} (h : Tracks (b.ensure i) x)
    (op : Op) : Tracks (b.step i op) (b.done x op) := by
  cases op with
  | write addr data =>
      show (⟨Function.update (b.ensure i).buffer addr.toNat data, (b.ensure i).loaded, _⟩ : Image β)
        = _
      rw [h]
      rfl
  | read addr => exact h

theorem run_tracks {b : Backend β} {s : β} {op : Op} {ops : List Op} {op' : Op}
    (h : Tracks (b.run (fresh s) (op :: ops)) (b.session s op ops))
    (hx : b.Restores (b.session s op ops)) :
    Tracks (b.run (fresh s) (op :: (ops ++ [op']))) (b.session s op (ops ++ [op'])) := by
  have hrun : b.run (fresh s) (op :: (ops ++ [op'])) = b.step (b.run (fresh s) (op :: ops)) op' :=
    b.run_append (fresh s) (op :: ops) [op']
  rw [hrun, session, List.foldl_append]
  exact step_done (ensure_next h hx) op'

/-- The condition on the loads is one on the code's image. -/
theorem stable_iff (b : Backend β) (s : β) :
    b.Stable s ↔ ∀ ops, InRange ops → ops ≠ [] → b.Keeps (b.run (fresh s) ops) := by
  have hfirst (op : Op) : Tracks (b.run (fresh s) [op]) (b.session s op []) :=
    step_done (b.ensure_first s) op
  constructor
  · intro h ops hops hne
    obtain ⟨op, rest, rfl⟩ := List.exists_cons_of_ne_nil hne
    have htracks : Tracks (b.run (fresh s) (op :: rest)) (b.session s op rest) := by
      clear hne
      induction rest using List.reverseRecOn with
      | nil => exact hfirst op
      | append_singleton rest op' ih =>
          have hrest : InRange (op :: rest) := fun o ho => hops o (List.mem_append_left [op'] ho)
          exact run_tracks (ih hrest) (h op rest hrest)
    rw [htracks]
    exact (b.restores_iff _).mp (h op rest hops)
  · intro h op ops hops
    have htracks : Tracks (b.run (fresh s) (op :: ops)) (b.session s op ops) := by
      induction ops using List.reverseRecOn with
      | nil => exact hfirst op
      | append_singleton ops op' ih =>
          have hrest : InRange (op :: ops) := fun o ho => hops o (List.mem_append_left [op'] ho)
          have hkeeps := h (op :: ops) hrest (List.cons_ne_nil op ops)
          rw [ih hrest] at hkeeps
          exact run_tracks (ih hrest) ((b.restores_iff _).mpr hkeeps)
    have hkeeps := h (op :: ops) hops (List.cons_ne_nil op ops)
    rw [htracks] at hkeeps
    exact (b.restores_iff _).mpr hkeeps

end Backend

/-! ## The array law -/

/-- The image after at least one call is what the array law says. -/
theorem Backend.IsArray.buffer {b : Backend β} {s : β} (h : b.IsArray s) {ops : List Op}
    (hops : InRange ops) (hne : ops ≠ []) {a : Word} (ha : a.toNat < eepromSize) :
    (b.run (fresh s) ops).buffer a.toNat = (written ops a).getD (b.loadedByte s a) := by
  induction ops using List.reverseRecOn with
  | nil => exact absurd rfl hne
  | append_singleton ops op =>
      have hread := h ops a (fun o ho => hops o (List.mem_append_left _ ho)) ha
      rw [b.run_append]
      cases op with
      | write addr data =>
          rw [written_write]
          refine (b.buffer_write _ addr a data).trans ?_
          split_ifs
          · rfl
          · exact hread
      | read addr =>
          rw [written_read]
          exact (b.buffer_read _ addr a).trans hread

theorem Backend.read_eq (b : Backend β) (a : Word) (i : Image β) : (b.read a i).1
    = if i.loaded ≠ 0 then i.buffer a.toNat else b.filled i.buffer i.backend a.toNat := by
  unfold Backend.read Backend.ensure
  split_ifs <;> rfl

/-- A read while nothing has been called. -/
theorem Backend.read_fresh (b : Backend β) (s : β) {a : Word} (ha : a.toNat < eepromSize) :
    (b.read a (fresh s)).1 = b.loadedByte s a :=
  (b.read_eq a (fresh s)).trans (b.filled_of_lt _ s ha)

theorem Backend.isArray_of_keeps {b : Backend β} {s : β}
    (h : ∀ ops, InRange ops → ops ≠ [] → b.Keeps (b.run (fresh s) ops)) : b.IsArray s := by
  intro ops a hops ha
  induction ops using List.reverseRecOn with
  | nil => exact b.read_fresh s ha
  | append_singleton ops op ih =>
      have hread := ih fun o ho => hops o (List.mem_append_left _ ho)
      have hsame : (b.read a (b.run (fresh s) (ops ++ [op]))).1
          = (b.run (fresh s) (ops ++ [op])).buffer a.toNat := by
        rw [b.read_eq]
        split_ifs with hloaded
        · rfl
        · exact h _ hops (by simp) (not_not.mp hloaded) _ ha
      rw [hsame, b.run_append]
      cases op with
      | write addr data =>
          rw [written_write]
          refine (b.buffer_write _ addr a data).trans ?_
          split_ifs
          · rfl
          · exact hread
      | read addr =>
          rw [written_read]
          exact (b.buffer_read _ addr a).trans hread

theorem Backend.Stable.isArray {b : Backend β} {s : β} (h : b.Stable s) : b.IsArray s :=
  Backend.isArray_of_keeps ((b.stable_iff s).mp h)

/-- The image behaves as an array exactly when all loads but the session's
first give the array back. -/
theorem array_iff (b : Backend β) (s : β) : b.IsArray s ↔ b.Stable s := by
  refine ⟨fun h => (b.stable_iff s).mpr fun ops hops hne hloaded a ha => ?_, Backend.Stable.isArray⟩
  have hword : (BitVec.ofNat 16 a).toNat = a := by
    rw [BitVec.toNat_ofNat, Nat.mod_eq_of_lt (ha.trans (by decide))]
  have hread := h ops (BitVec.ofNat 16 a) hops (hword.symm ▸ ha)
  rw [b.read_eq, if_neg (not_not.mpr hloaded), ← h.buffer hops hne (hword.symm ▸ ha), hword]
    at hread
  exact hread

/-! ## U-Boot -/

/-- `eeprom_uboot.c`: nothing is loaded and nothing is kept. -/
def uboot : Backend Unit where
  load buffer _ := ((0, buffer), ())
  flush _ _ := ()

/-- The image is filled with FFh at every access: the byte 12h written is
read back as FFh. -/
theorem uboot_not_array : ¬ uboot.IsArray () := by
  intro h
  have hread := h [.write 0 0x12] 0 (by simp [InRange, Op.addr, eepromSize]) (by decide)
  revert hread
  decide

/-! ## POSIX -/

/-- `eeprom_posix.c`, over its part of `Rom`. -/
def posix : Backend Rom where
  load buffer e :=
    (((load { e with buffer := buffer }).1, (load { e with buffer := buffer }).2.buffer),
      (load { e with buffer := buffer }).2)
  flush buffer e := (flush { e with buffer := buffer }).2

theorem load_open {e : Rom} (h : e.fp.isSome = true) : load e = (eepromSize, e) := by
  rw [load, Runs.get_bind_run, if_pos h]
  rfl

/-- A first load leaves the file open as far as it can be opened. -/
theorem load_first {e : Rom} (h : e.fp = none) :
    (load e).2.fp = (fopen e).1 ∧ (load e).2.file = (fopen e).2 := by
  obtain ⟨buffer, loaded, fp, file, writable, creatable, trail⟩ := e
  cases h
  cases file with
  | none => cases creatable <;> exact ⟨rfl, rfl⟩
  | some bytes => cases writable <;> exact ⟨rfl, rfl⟩

theorem flush_fp (e : Rom) : (flush e).2.fp = e.fp := by
  rw [flush, Runs.modify_run]
  dsimp only
  split <;> rfl

/-- Once the file is open a load leaves the image as it is. -/
theorem posix_filled_open {buffer : Nat → Byte} {e : Rom} (h : e.fp.isSome = true) :
    posix.filled buffer e = buffer := by
  have hload : load { e with buffer := buffer } = (eepromSize, { e with buffer := buffer }) :=
    load_open h
  unfold Backend.filled posix
  simp only [hload, Nat.sub_self, splice_zero]

/-- The first access opens the file, or one before it has. -/
def Opened (i : Image Rom) : Prop :=
  i.backend.fp.isSome = true
    ∨ i.loaded = 0 ∧ i.backend.fp = none ∧ (fopen i.backend).1.isSome = true

theorem Opened.ensure {i : Image Rom} (h : Opened i) :
    (posix.ensure i).backend.fp.isSome = true := by
  unfold Backend.ensure
  rcases h with h | ⟨hloaded, hnone, hopen⟩
  · split_ifs with hloaded
    · exact h
    · have hload := load_open (e := { i.backend with buffer := i.buffer }) h
      show (load { i.backend with buffer := i.buffer }).2.fp.isSome = true
      rw [hload]
      exact h
  · rw [if_neg (not_not.mpr hloaded)]
    show (load { i.backend with buffer := i.buffer }).2.fp.isSome = true
    have hload := load_first (e := { i.backend with buffer := i.buffer }) hnone
    rw [hload.1]
    exact hopen

theorem Opened.step {i : Image Rom} (h : Opened i) (op : Op) :
    (posix.step i op).backend.fp.isSome = true := by
  cases op with
  | write addr data =>
      show (flush _).2.fp.isSome = true
      rw [flush_fp]
      exact h.ensure
  | read addr => exact h.ensure

theorem posix_run_open {e : Rom} (h : e.fp = none) (hopen : (fopen e).1.isSome = true)
    {ops : List Op} (hne : ops ≠ []) : (posix.run (fresh e) ops).backend.fp.isSome = true := by
  induction ops using List.reverseRecOn with
  | nil => exact absurd rfl hne
  | append_singleton ops op ih =>
      rw [posix.run_append]
      refine Opened.step ?_ op
      by_cases hnil : ops = []
      · rw [hnil]
        exact .inr ⟨rfl, h, hopen⟩
      · exact .inl (ih hnil)

/-- The POSIX backend makes the image an array if `eeprom.img` can be
opened, and only then. -/
theorem posix_stable_iff {e : Rom} (h : e.fp = none) :
    posix.Stable e ↔ (fopen e).1.isSome = true := by
  rw [posix.stable_iff]
  refine ⟨fun hkeeps => ?_, fun hopen ops _ hne _ a _ => ?_⟩
  · by_contra hopen
    obtain ⟨buffer, loaded, fp, file, writable, creatable, trail⟩ := e
    cases h
    cases file with
    | some bytes => cases writable <;> exact absurd rfl hopen
    | none =>
        cases creatable
        · have hread := hkeeps [.write 0 0x12] (by simp [InRange, Op.addr, eepromSize]) nofun rfl 0
            (by decide)
          have hbyte : (0xff : Byte) = 0x12 := hread
          exact absurd hbyte (by decide)
        · exact absurd rfl hopen
  · exact congrFun (posix_filled_open (posix_run_open h hopen hne)) a

/-! ## The state as a whole -/

/-- The image over the POSIX backend as the state `Rom`. -/
def Image.rom (i : Image Rom) : Rom := { i.backend with buffer := i.buffer, loaded := i.loaded }

theorem ensure_rom (i : Image Rom) : (ensure i.rom).2 = (posix.ensure i).rom := by
  obtain ⟨buffer, loaded, _, _, fp, file, writable, creatable, trail⟩ := i
  cases loaded with
  | succ n => rfl
  | zero =>
      cases fp with
      | some mode => rfl
      | none =>
          cases file with
          | none => cases creatable <;> rfl
          | some bytes => cases writable <;> rfl

/-- `Eeprom.read` and `Eeprom.write` are the calls of the image over the
POSIX backend. -/
theorem read_rom (addr : Word) (i : Image Rom) :
    read addr i.rom = ((posix.read addr i).1, (posix.read addr i).2.rom) := by
  show ((ensure i.rom).2.buffer addr.toNat, (ensure i.rom).2) = _
  rw [ensure_rom]
  rfl

theorem write_rom (addr : Word) (data : Byte) (i : Image Rom) :
    (write addr data i.rom).2 = (posix.write addr data i).rom.logged := by
  show (flush { (ensure i.rom).2 with
    buffer := Function.update (ensure i.rom).2.buffer addr.toNat data }).2.logged = _
  rw [ensure_rom]
  unfold Backend.write
  generalize posix.ensure i = j
  obtain ⟨buffer, loaded, _, _, fp, file, writable, creatable, trail⟩ := j
  cases file with
  | none => rcases fp with _ | _ | _ | _ <;> rfl
  | some bytes => rcases fp with _ | _ | _ | _ <;> rfl

end Eeprom

end CpMega88
