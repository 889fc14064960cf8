import CpMega88.Console
import CpMega88.Lib.Fuel
import CpMega88.Lib.Packets
import CpMega88.UsbConsole

/-!
# Control requests

Endpoint 0 of `con_avr_cdc.c`: what `USB_COM_vect` does with a SETUP
packet, with the descriptors it answers with. Endpoint 0 has one bank of
32 bytes. Clearing TXINI sends what has been written to it, and TXINI is
set again when the host has taken that.

`setup_state` ties this to the interrupt as one step in `UsbConsole`.
`controlRead_carries_iff` says when the packets of a control read are
those that USB 2.0 asks for, and `setup_collect` what the host makes of
them.
-/

namespace CpMega88

open Bytes Packets

namespace UsbConsole

/-! ## Descriptors -/

/-- The letters of a string descriptor, each with its zero. -/
def letters (s : List Byte) : List Byte := s.flatMap fun c => [c, 0]

def deviceDesc : List Byte :=
  [0x12, 1, 0x00, 0x02, 2, 2, 0, 0x20, 0x66, 0x66, 0x80, 0x80, 0x00, 0x01, 1, 2, 3, 0x01]

def configDesc : List Byte := [
  0x09, 2, 0x43, 0x00, 0x02, 0x01, 0x00, 0x80, 0xfa,
  0x09, 4, 0x00, 0x00, 0x01, 2, 2, 0x01, 0x00,  -- interface 0
  0x05, 36, 0, 0x10, 0x01,
  0x05, 36, 1, 0x00, 0x01,
  0x04, 36, 2, 0x02,
  0x05, 36, 6, 0x00, 0x01,
  0x07, 5, 0x81, 0x03, 0x20, 0x00, 0x10,
  0x09, 4, 0x01, 0x00, 0x02, 10, 0, 0, 0x00,  -- interface 1
  0x07, 5, 0x02, 0x02, 0x20, 0x00, 0x00,
  0x07, 5, 0x83, 0x02, 0x20, 0x00, 0x00]

def langStringDesc : List Byte := [0x04, 3, 0x09, 0x04]

def manufacturerStringDesc : List Byte := [0x20, 3] ++ letters (ascii "TOYOSHIMA-HOUSE")

def productStringDesc : List Byte := [0x18, 3] ++ letters (ascii "CP/MEGA32U2")

def serialStringDesc : List Byte := [0x0a, 3] ++ letters (ascii "0.20")

/-! ## Endpoint 0 -/

structure Endpoint0 where
  state : LineState
  /-- `lc` of the interrupt. -/
  lineCoding : Vector Byte 7
  udaddr : Byte
  /-- STALLRQ. -/
  stalled : Bool
  led : Bool
  /-- What has been written to UEDATX for the next packet. -/
  bank : List Byte
  /-- The packets sent. -/
  sent : List (List Byte)
  /-- How often UEINTX is read before TXINI is set. -/
  busy : Nat
  /-- The same for the times TXINI will be cleared. -/
  delay : Nat → Nat
  /-- The data packet that the host sends: how often UEINTX is read before
  it is there, and what UEDATX has yet to deliver of it. -/
  data : Option (Nat × List Byte)

/-- Enumerated, and nothing asked for yet. -/
def Endpoint0.initial (delay : Nat → Nat) : Endpoint0 :=
  ⟨.notReady, .replicate 7 0, 0, false, false, [], [], 0, delay, none⟩

abbrev ControlM := Prog Endpoint0

/-! ## Registers -/

/-- TXINI is cleared, and will be set again after some time. -/
def Endpoint0.taken (s : Endpoint0) : Endpoint0 :=
  { s with bank := [], busy := s.delay 0, delay := fun n => s.delay (n + 1) }

/-- `UEINTX = ~_BV(TXINI)`: what is in the bank is sent. -/
def clearTxini : ControlM Unit := modify fun s => { s.taken with sent := s.sent ++ [s.bank] }

/-- `UEINTX = ~(_BV(RXSTPI) | _BV(TXINI))`: a SETUP packet has come, which
ends a stall and leaves the bank empty. -/
def acknowledge : ControlM Unit := modify fun s => { s.taken with stalled := false }

/-- `UEINTX & _BV(TXINI)`. -/
def pollTxini : ControlM (Option Unit) := do
  if (← get).busy = 0 then return some ()
  else
    modify fun s => { s with busy := s.busy - 1 }
    return none

/-- `while (!(UEINTX & _BV(TXINI)))`. -/
def waitTxini : ControlM Unit := do Prog.attempts pollTxini ((← get).busy + 1)

/-- `UEINTX & _BV(RXOUTI)`. -/
def pollRxouti : ControlM (Option Unit) := do
  match (← get).data with
  | none => return none
  | some (0, _) => return some ()
  | some (left + 1, bytes) =>
    modify fun s => { s with data := some (left, bytes) }
    return none

/-- `while (!(UEINTX & _BV(RXOUTI)))`, which does not end without data. -/
def waitRxouti : ControlM Unit := do
  match (← get).data with
  | none => failure
  | some (left, _) => Prog.attempts pollRxouti (left + 1)

/-- `UEDATX = c`; nothing is said about a bank that is not free. -/
def putUedatx (c : Byte) : ControlM Unit := do
  if (← get).busy = 0 then modify fun s => { s with bank := s.bank ++ [c] } else failure

/-- UEDATX is read. -/
def getUedatx : ControlM Byte := do
  match (← get).data with
  | some (left, c :: bytes) =>
    modify fun s => { s with data := some (left, bytes) }
    return c
  | _ => failure

/-! ## Buffers -/

/-- The loop of `ep_read`. -/
def epReadLoop : (size : Nat) → ControlM (Vector Byte size)
  | 0 => return #v[]
  | size + 1 => do
    let buffer ← epReadLoop size
    return buffer.push (← getUedatx)

def epRead (size : Nat) : ControlM (Vector Byte size) := do
  let buffer ← epReadLoop size
  modify fun s => { s with data := none }
  return buffer

/-- The loop of `ep_write`, with `size` bytes to go at `p`. -/
def epWriteLoop : Nat → List Byte → Byte → ControlM Unit
  | 0, _, _ => pure ()
  | _ + 1, [], _ => failure
  | size + 1, c :: p, written => do
    putUedatx c
    if written + 1 = 0x20 then
      clearTxini
      waitTxini
      epWriteLoop size p 0
    else epWriteLoop size p (written + 1)

def epWrite (buffer : List Byte) (size : Byte) : ControlM Unit :=
  epWriteLoop size.toNat buffer 0

def minU16 (a b : Word) : Byte := (if a < b then a else b).setWidth 8

/-- `ep_write(x, min_u16(sizeof(x), r.wLength), is_pgm)`. -/
def epWriteMin (x : List Byte) (wLength : Word) : ControlM Unit :=
  epWrite x (minU16 (BitVec.ofNat 16 x.length) wLength)

/-! ## Requests -/

def DeviceRequest.direction (r : DeviceRequest) : Byte := r.bmRequestType >>> 7

def setState (state : LineState) : ControlM Unit := modify fun s => { s with state := state }

/-- `UECONX |= (_BV(STALLRQ) | _BV(EPEN))`. -/
def stall : ControlM Unit := modify fun s => { s with stalled := true }

/-- The string that an index names. -/
def stringDesc (index : Byte) : List Byte :=
  match index with
  | 1 => manufacturerStringDesc
  | 2 => productStringDesc
  | 3 => serialStringDesc
  | _ => langStringDesc

/-- `case req_set_address`. -/
def setAddress (wValue : Word) : ControlM Unit := do
  modify fun s => { s with udaddr := (wValue &&& 0x7f).setWidth 8 }
  clearTxini
  waitTxini
  modify fun s => { s with udaddr := s.udaddr ||| 0x80 }

/-- `case req_get_descriptor`; false where it returns. -/
def getDescriptor (r : DeviceRequest) : ControlM Bool :=
  match r.wValue >>> 8 with
  | 1 => do
    epWriteMin deviceDesc r.wLength
    return true
  | 2 => do
    epWriteMin configDesc r.wLength
    return true
  | 3 => do
    epWriteMin (stringDesc (loByte r.wValue)) r.wLength
    return true
  | 6 => do
    stall
    return false
  | _ => do
    setState .error
    return true

/-- A standard request to the device; false where it returns. -/
def standardRequest (r : DeviceRequest) : ControlM Bool :=
  match r.bRequest with
  | 1 => return true
  | 5 => do
    setAddress r.wValue
    return false
  | 6 => getDescriptor r
  | 9 => return true
  | _ => do
    setState .error
    return true

/-- A class request to the interface. -/
def classRequest (r : DeviceRequest) : ControlM Unit :=
  match r.bRequest with
  | 32 => do
    waitRxouti
    if r.wLength = 7 then
      let lc ← epRead 7
      modify fun s => { s with lineCoding := lc }
    else setState .error
  | 33 => do epWriteMin (← get).lineCoding.toList r.wLength
  | 34 => do if r.wValue &&& 1 ≠ 0 then setState .ready
  | _ => setState .error

/-- The end of the interrupt. -/
def finish : ControlM Unit := do
  if (← get).state = .error then
    modify fun s => { s with led := true }
    stall
  else clearTxini

/-- What the interrupt does with a request, once it may answer. -/
def respond (r : DeviceRequest) : ControlM Unit := do
  if (← get).state = .error then finish
  else if r.type = 0 ∧ r.receptor = 0 then
    if ← standardRequest r then finish
  else if r.type = 1 ∧ r.receptor = 1 then
    classRequest r
    finish
  else
    setState .error
    finish

/-- `USB_COM_vect` from the SETUP packet on. -/
def setup (r : DeviceRequest) : ControlM Unit := do
  acknowledge
  if r.direction = 1 then waitTxini
  respond r

/-! ## Waiting -/

theorem pollTxini_set {s : Endpoint0} (h : s.busy = 0) : pollTxini s = some (some (), s) := by
  rw [pollTxini, Prog.get_bind_run, Prog.ite_run, if_pos h]
  rfl

theorem pollTxini_clear {s : Endpoint0} {n : Nat} (h : s.busy = n + 1) :
    pollTxini s = some (none, { s with busy := n }) := by
  rw [pollTxini, Prog.get_bind_run, Prog.ite_run, if_neg (by omega), Prog.modify_bind_run, h]
  rfl

/-- The host takes the packet. -/
theorem waitTxini_run (s : Endpoint0) : waitTxini s = some ((), { s with busy := 0 }) := by
  have hloop (n : Nat) (s : Endpoint0) (h : s.busy = n) :
      Prog.attempts pollTxini (n + 1) s = some ((), { s with busy := 0 }) := by
    induction n generalizing s with
    | zero =>
        rw [Prog.attempts_done (pollTxini_set h)]
        cases s
        cases h
        rfl
    | succ n ih =>
        rw [Prog.attempts_again (pollTxini_clear h)]
        exact ih { s with busy := n } rfl
  exact hloop s.busy s rfl

/-! ## What a write sends -/

/-- Only packets have gone out. -/
def Transmits (s t : Endpoint0) : Prop :=
  ∃ bank sent busy delay,
    t = { s with bank := bank, sent := sent, busy := busy, delay := delay }

instance : Std.Refl Transmits := ⟨fun _ => ⟨_, _, _, _, rfl⟩⟩

instance : IsTrans Endpoint0 Transmits where
  trans _ _ _ h h' := by
    obtain ⟨bank, sent, busy, delay, rfl⟩ := h
    obtain ⟨bank', sent', busy', delay', rfl⟩ := h'
    exact ⟨bank', sent', busy', delay', rfl⟩

theorem clearTxini_transmits : Prog.Keeps Transmits clearTxini :=
  .modify fun _ => ⟨_, _, _, _, rfl⟩

theorem waitTxini_transmits : Prog.Keeps Transmits waitTxini := by
  intro s a t h
  rw [waitTxini_run] at h
  cases h
  exact ⟨_, _, _, _, rfl⟩

theorem putUedatx_transmits (c : Byte) : Prog.Keeps Transmits (putUedatx c) :=
  .bind .get fun _ => .ite (.modify fun _ => ⟨_, _, _, _, rfl⟩) .failure

theorem epWriteLoop_transmits (size : Nat) (p : List Byte) (written : Byte) :
    Prog.Keeps Transmits (epWriteLoop size p written) := by
  induction size generalizing p written with
  | zero => exact .pure ()
  | succ size ih =>
      rcases p with _ | ⟨c, p⟩
      · exact .failure
      · refine .bind (putUedatx_transmits c) fun _ => .ite ?_ (ih p _)
        exact .bind clearTxini_transmits fun _ => .bind waitTxini_transmits fun _ => ih p 0

/-- The bank is free, and empty. -/
structure Endpoint0.Free (s : Endpoint0) : Prop where
  ready : s.busy = 0
  empty : s.bank = []

/-- The packets that go out, and the one left in the bank, are those of
the bytes written; `written` counts what is in the bank. -/
theorem epWriteLoop_run {size : Nat} {p : List Byte} {written : Byte} {s : Endpoint0}
    (hsize : size ≤ p.length) (hready : s.busy = 0) (hwritten : written.toNat = s.bank.length)
    (hroom : s.bank.length < 0x20) : ∃ t, epWriteLoop size p written s = some ((), t)
      ∧ t.busy = 0 ∧ t.sent ++ [t.bank] = s.sent ++ fill 0x20 s.bank (p.take size) := by
  induction size generalizing p written s with
  | zero => exact ⟨s, rfl, hready, rfl⟩
  | succ size ih =>
      rcases p with _ | ⟨c, p⟩
      · exact absurd hsize (Nat.not_succ_le_zero _)
      have hput : putUedatx c s = some ((), { s with bank := s.bank ++ [c] }) := by
        rw [putUedatx, Prog.get_bind_run, Prog.ite_run, if_pos hready]
        rfl
      have hrest := Nat.le_of_succ_le_succ hsize
      have hnext : (written + 1).toNat = s.bank.length + 1 := by
        rw [BitVec.toNat_add, hwritten, show (1 : Byte).toNat = 1 from rfl]
        exact Nat.mod_eq_of_lt (by omega)
      have hfull : written + 1 = 0x20 ↔ s.bank.length + 1 = 0x20 := by
        rw [← BitVec.toNat_inj, hnext]
        rfl
      rw [epWriteLoop, Prog.bind_of_run hput, Prog.ite_run, List.take_succ_cons, fill]
      by_cases h : written + 1 = 0x20
      · -- the packet is full: it goes out, and the rest is written to an empty bank
        rw [if_pos h, if_pos (hfull.mp h), clearTxini, Prog.modify_bind_run,
          Prog.bind_of_run (waitTxini_run _)]
        obtain ⟨t, hrun, hready', hsent⟩ := @ih p 0 { s.taken with
          sent := s.sent ++ [s.bank ++ [c]], busy := 0 } hrest rfl rfl (Nat.succ_pos _)
        refine ⟨t, hrun, hready', hsent.trans ?_⟩
        rw [List.append_assoc, List.singleton_append]
        rfl
      · rw [if_neg h, if_neg (mt hfull.mpr h)]
        have hlength : (s.bank ++ [c]).length = s.bank.length + 1 := by
          rw [List.length_append, List.length_singleton]
        have hmore := mt hfull.mpr h
        exact @ih p (written + 1) { s with bank := s.bank ++ [c] } hrest hready
          (hnext.trans hlength.symm) (hlength.trans_lt (by omega))

theorem toNat_minU16 {n : Nat} (hn : n ≤ 255) (w : Word) :
    (minU16 (BitVec.ofNat 16 n) w).toNat = min n w.toNat := by
  have hnat : (BitVec.ofNat 16 n).toNat = n := Nat.mod_eq_of_lt (by omega)
  rw [minU16, BitVec.toNat_setWidth]
  split_ifs with h
  · rw [BitVec.lt_def, hnat] at h
    rw [hnat]
    omega
  · rw [BitVec.lt_def, hnat] at h
    omega

/-- Nothing has gone out or is in the bank but what was asked for. -/
theorem epWriteMin_run {x : List Byte} (hx : x.length ≤ 255) (wLength : Word) {s : Endpoint0}
    (hs : s.Free) : ∃ t, epWriteMin x wLength s = some ((), t) ∧ Transmits s t
      ∧ t.sent ++ [t.bank] = s.sent ++ cut 0x20 (x.take wLength.toNat) := by
  have hmin := toNat_minU16 hx wLength
  obtain ⟨t, hrun, -, hsent⟩ := @epWriteLoop_run (min x.length wLength.toNat) x 0 s
    (Nat.min_le_left _ _) hs.ready (by rw [hs.empty]; rfl) (by rw [hs.empty]; decide)
  rw [← hmin] at hrun
  refine ⟨t, hrun, epWriteLoop_transmits _ _ _ s () t hrun, ?_⟩
  have htake : x.take wLength.toNat = x.take (min x.length wLength.toNat) := by
    rw [Nat.min_comm, ← List.take_eq_take_min]
  rw [hsent, hs.empty, cut, htake]

/-- The data stage of a control read: what is asked for of a buffer, and
the end of the interrupt. -/
def controlRead (x : List Byte) (wLength : Word) : ControlM Unit := do
  epWriteMin x wLength
  clearTxini

theorem controlRead_run {x : List Byte} (hx : x.length ≤ 255) (wLength : Word) {s : Endpoint0}
    (hs : s.Free) : ∃ t, controlRead x wLength s = some ((), t)
      ∧ t.sent = s.sent ++ cut 0x20 (x.take wLength.toNat) := by
  obtain ⟨t, hrun, -, hsent⟩ := epWriteMin_run hx wLength hs
  exact ⟨_, (Prog.bind_of_run hrun _).trans rfl, hsent⟩

/-- The packets are those of USB 2.0 unless full ones bring exactly what
the host has asked for: the handler then sends an empty one as well. -/
theorem controlRead_carries_iff {x : List Byte} (hx : x.length ≤ 255) (wLength : Word)
    {s : Endpoint0} (hs : s.Free) : ∃ ps t, controlRead x wLength s = some ((), t)
      ∧ t.sent = s.sent ++ ps ∧ (Carries 0x20 wLength.toNat x ps
        ↔ ¬(wLength.toNat ≠ 0 ∧ 0x20 ∣ wLength.toNat ∧ wLength.toNat ≤ x.length)) := by
  obtain ⟨t, hrun, hsent⟩ := controlRead_run hx wLength hs
  exact ⟨_, t, hrun, hsent, cut_carries_iff (by decide) wLength.toNat x⟩

/-- The device descriptor, asked for with 64 bytes. -/
theorem controlRead_carries_device : ∃ ps t,
    controlRead deviceDesc 64 (Endpoint0.initial fun n => n) = some ((), t) ∧ t.sent = ps
      ∧ Carries 0x20 64 deviceDesc ps := by
  obtain ⟨ps, t, hrun, hsent, hcarries⟩ := controlRead_carries_iff (x := deviceDesc) (by decide) 64
    (s := Endpoint0.initial fun n => n) ⟨rfl, rfl⟩
  exact ⟨ps, t, hrun, hsent, hcarries.mpr (by decide)⟩

/-! ## The handler -/

/-- The descriptor that GET_DESCRIPTOR is answered with. -/
def DeviceRequest.descriptor (r : DeviceRequest) : Option (List Byte) :=
  match r.wValue >>> 8 with
  | 1 => some deviceDesc
  | 2 => some configDesc
  | 3 => some (stringDesc (loByte r.wValue))
  | _ => none

/-- What the handler answers a request with, if it has a data stage. -/
def DeviceRequest.answer (r : DeviceRequest) (lineCoding : List Byte) : Option (List Byte) :=
  if r.type = 0 ∧ r.receptor = 0 ∧ r.bRequest = 6 then r.descriptor
  else if r.type = 1 ∧ r.receptor = 1 ∧ r.bRequest = 33 then some lineCoding
  else none

/-- The state in which the handler begins to answer. -/
def Endpoint0.answering (s : Endpoint0) : Endpoint0 := { s.taken with stalled := false, busy := 0 }

theorem answering_free (s : Endpoint0) : s.answering.Free := ⟨rfl, rfl⟩

theorem stringDesc_length (index : Byte) : (stringDesc index).length ≤ 255 := by
  unfold stringDesc
  split <;> simp [manufacturerStringDesc, productStringDesc, serialStringDesc, langStringDesc,
    letters, ascii]

theorem descriptor_length {r : DeviceRequest} {x : List Byte} (h : r.descriptor = some x) :
    x.length ≤ 255 := by
  unfold DeviceRequest.descriptor at h
  split at h
  case h_1 | h_2 =>
    cases h
    decide
  case h_3 =>
    cases h
    exact stringDesc_length _
  case h_4 => cases h

theorem answer_length {r : DeviceRequest} {lineCoding : Vector Byte 7} {x : List Byte}
    (h : r.answer lineCoding.toList = some x) : x.length ≤ 255 := by
  unfold DeviceRequest.answer at h
  split_ifs at h
  · exact descriptor_length h
  · cases h
    simp

theorem getDescriptor_answers {r : DeviceRequest} {x : List Byte} (h : r.descriptor = some x) :
    getDescriptor r = (do
      epWriteMin x r.wLength
      return true : ControlM Bool) := by
  unfold DeviceRequest.descriptor at h
  split at h
  case h_1 hdesc | h_2 hdesc | h_3 hdesc =>
    cases h
    rw [getDescriptor, hdesc]
    rfl
  case h_4 => cases h

/-- After an answer the handler comes to its end. -/
theorem answered_run {x : List Byte} {wLength : Word} {s t : Endpoint0} (hstate : s.state ≠ .error)
    (hrun : epWriteMin x wLength s = some ((), t)) :
    finish t = controlRead x wLength s := by
  obtain ⟨bank, sent, busy, delay, rfl⟩ := epWriteLoop_transmits _ _ _ s () t hrun
  rw [controlRead, Prog.bind_of_run hrun, finish, Prog.get_bind_run, Prog.ite_run, if_neg hstate]

theorem setup_in {r : DeviceRequest} (hdir : r.direction = 1) (s : Endpoint0) :
    setup r s = respond r s.answering := by
  rw [setup, acknowledge, Prog.modify_bind_run, if_pos hdir]
  exact Prog.bind_of_run (waitTxini_run _) _

theorem respond_answers {r : DeviceRequest} {s : Endpoint0} (hs : s.Free)
    (hstate : s.state ≠ .error) {x : List Byte} (hx : r.answer s.lineCoding.toList = some x) :
    respond r s = controlRead x r.wLength s := by
  obtain ⟨t, hrun, -, -⟩ := epWriteMin_run (answer_length hx) r.wLength hs
  rw [← answered_run hstate hrun, respond, Prog.get_bind_run, Prog.ite_run, if_neg hstate,
    Prog.ite_run]
  unfold DeviceRequest.answer at hx
  split_ifs at hx with hstandard hclass
  · obtain ⟨htype, hreceptor, hreq⟩ := hstandard
    have hread : standardRequest r s = some (true, t) := by
      rw [standardRequest, hreq]
      show getDescriptor r s = _
      rw [getDescriptor_answers hx]
      exact Prog.bind_of_run hrun _
    rw [if_pos ⟨htype, hreceptor⟩]
    exact Prog.bind_of_run hread _
  · obtain ⟨htype, hreceptor, hreq⟩ := hclass
    cases hx
    have hread : classRequest r s = some ((), t) := by
      rw [classRequest, hreq]
      exact hrun
    have hother : ¬(r.type = 0 ∧ r.receptor = 0) := by
      rw [htype]
      exact fun h => absurd h.1 (by decide)
    rw [if_neg hother, Prog.ite_run, if_pos ⟨htype, hreceptor⟩]
    exact Prog.bind_of_run hread _

/-- A control read while the console is not in error: the host gets what it
asked for, and an empty packet stays behind where full ones brought all of
it. -/
theorem setup_collect {r : DeviceRequest} {s : Endpoint0} (hdir : r.direction = 1)
    (hstate : s.state ≠ .error) {x : List Byte} (hx : r.answer s.lineCoding.toList = some x) :
    ∃ ps t, setup r s = some ((), t) ∧ t.sent = s.sent ++ ps
      ∧ collect 0x20 r.wLength.toNat ps = (x.take r.wLength.toNat,
        if r.wLength.toNat ≠ 0 ∧ 0x20 ∣ r.wLength.toNat ∧ r.wLength.toNat ≤ x.length
        then [[]] else []) := by
  obtain ⟨t, hrun, hsent⟩ := controlRead_run (answer_length hx) r.wLength (answering_free s)
  rw [setup_in hdir, respond_answers (answering_free s) hstate hx, hrun]
  exact ⟨_, t, rfl, hsent, collect_cut (by decide) r.wLength.toNat x⟩

/-- GET_DESCRIPTOR for the first 32 bytes of the configuration: a full
packet brings them, and the host has no use for the empty one that
follows. -/
theorem setup_surplus : ∃ t, setup ⟨0x80, 6, 0x0200, 0x20⟩ (Endpoint0.initial fun _ => 2)
      = some ((), t)
    ∧ t.sent = [configDesc.take 0x20, []] ∧ ¬Carries 0x20 0x20 configDesc t.sent
    ∧ collect 0x20 0x20 t.sent = (configDesc.take 0x20, [[]]) := by
  obtain ⟨ps, t, hrun, hsent, hcollect⟩ := setup_collect (r := ⟨0x80, 6, 0x0200, 0x20⟩)
    (s := Endpoint0.initial fun _ => 2) rfl (by decide) (x := configDesc) rfl
  obtain ⟨u, hu, hpackets⟩ : ∃ u, setup ⟨0x80, 6, 0x0200, 0x20⟩ (Endpoint0.initial fun _ => 2)
      = some ((), u) ∧ u.sent = [configDesc.take 0x20, []] := ⟨_, rfl, rfl⟩
  obtain rfl : u = t := congrArg Prod.snd (Option.some.inj (hu.symm.trans hrun))
  have hps : u.sent = ps := hsent
  rw [← hps] at hcollect
  refine ⟨u, hrun, hpackets, fun h => ?_, hcollect⟩
  rw [hpackets] at h
  rcases h.short.mp ⟨[], rfl, by decide⟩ with hno | hlt
  · exact hno (by decide)
  · exact absurd hlt (by decide)

/-! ## The line state -/

def SameState (s t : Endpoint0) : Prop := t.state = s.state

instance : Std.Refl SameState := ⟨fun _ => rfl⟩

instance : IsTrans Endpoint0 SameState where
  trans _ _ _ h h' := Eq.trans h' h

theorem transmits_sameState {α : Type} {x : ControlM α} (h : Prog.Keeps Transmits x) :
    Prog.Keeps SameState x := by
  refine h.mono fun s t ht => ?_
  obtain ⟨bank, sent, busy, delay, rfl⟩ := ht
  rfl

theorem epWriteMin_sameState (x : List Byte) (wLength : Word) :
    Prog.Keeps SameState (epWriteMin x wLength) :=
  transmits_sameState (epWriteLoop_transmits _ _ _)

theorem pollRxouti_sameState : Prog.Keeps SameState pollRxouti := by
  refine .bind .get fun s => ?_
  split
  · exact .pure _
  · exact .pure _
  · exact .bind (.modify fun _ => rfl) fun _ => .pure _

theorem waitRxouti_sameState : Prog.Keeps SameState waitRxouti := by
  refine .bind .get fun s => ?_
  split
  · exact .failure
  · exact .attempts pollRxouti_sameState _

theorem epReadLoop_sameState (size : Nat) : Prog.Keeps SameState (epReadLoop size) := by
  induction size with
  | zero => exact .pure _
  | succ size ih =>
      refine .bind ih fun buffer => .bind (.bind .get fun s => ?_) fun _ => .pure _
      split
      · exact .bind (.modify fun _ => rfl) fun _ => .pure _
      · exact .failure

theorem epRead_sameState (size : Nat) : Prog.Keeps SameState (epRead size) :=
  .bind (epReadLoop_sameState size) fun _ => .bind (.modify fun _ => rfl) fun _ => .pure _

theorem setAddress_sameState (wValue : Word) : Prog.Keeps SameState (setAddress wValue) :=
  .bind (.modify fun _ => rfl) fun _ => .bind (transmits_sameState clearTxini_transmits) fun _ =>
    .bind (transmits_sameState waitTxini_transmits) fun _ => .modify fun _ => rfl

theorem finish_sameState : Prog.Keeps SameState finish :=
  .bind .get fun _ => .ite (.bind (.modify fun _ => rfl) fun _ => .modify fun _ => rfl)
    (transmits_sameState clearTxini_transmits)

/-- The line state becomes what the interrupt as one step makes of it. -/
def Handles (r : DeviceRequest) (s t : Endpoint0) : Prop :=
  s.state ≠ .error → t.state = r.handle s.state

section Handles

variable {r : DeviceRequest}

theorem handles_same (h : ∀ state, state ≠ .error → r.handle state = state) {α : Type}
    {x : ControlM α} (hx : Prog.Keeps SameState x) : Prog.Keeps (Handles r) x :=
  hx.mono fun s _ ht hstate => ht.trans (h s.state hstate).symm

theorem handles_set {state : LineState} (h : ∀ state', state' ≠ .error → r.handle state' = state) :
    Prog.Keeps (Handles r) (setState state) :=
  .modify fun s hstate => (h s.state hstate).symm

theorem handles_then {α β : Type} {x : ControlM α} {k : α → ControlM β}
    (hx : Prog.Keeps (Handles r) x) (hk : ∀ a, Prog.Keeps SameState (k a)) :
    Prog.Keeps (Handles r) (x >>= k) := by
  intro s b u h hstate
  obtain ⟨a, t, ht, hu⟩ := Prog.bind_eq_some.mp h
  exact (hk a t b u hu).trans (hx s a t ht hstate)

theorem then_handles {α β : Type} {x : ControlM α} {k : α → ControlM β}
    (hx : Prog.Keeps SameState x) (hk : ∀ a, Prog.Keeps (Handles r) (k a)) :
    Prog.Keeps (Handles r) (x >>= k) := by
  intro s b u h hstate
  obtain ⟨a, t, ht, hu⟩ := Prog.bind_eq_some.mp h
  have hsame : t.state = s.state := hx s a t ht
  rw [← hsame] at hstate ⊢
  exact hk a t b u hu hstate

theorem getDescriptor_handles (htype : r.type = 0) (hreceptor : r.receptor = 0)
    (hreq : r.bRequest = 6) : Prog.Keeps (Handles r) (getDescriptor r) := by
  unfold getDescriptor
  split
  case h_1 h | h_2 h | h_3 h =>
    refine handles_same (fun state hstate => ?_) (.bind (epWriteMin_sameState _ _) fun _ => .pure _)
    simp [DeviceRequest.handle, hstate, htype, hreceptor, hreq, h]
  case h_4 h =>
    refine handles_same (fun state hstate => ?_) (.bind (.modify fun _ => rfl) fun _ => .pure _)
    simp [DeviceRequest.handle, hstate, htype, hreceptor, hreq, h]
  case h_5 h1 h2 h3 h6 =>
    refine handles_then (handles_set fun state hstate => ?_) fun _ => .pure _
    simp_all [DeviceRequest.handle]

theorem standardRequest_handles (htype : r.type = 0) (hreceptor : r.receptor = 0) :
    Prog.Keeps (Handles r) (standardRequest r) := by
  unfold standardRequest
  split
  case h_1 h | h_4 h =>
    refine handles_same (fun state hstate => ?_) (.pure _)
    simp [DeviceRequest.handle, hstate, htype, hreceptor, h]
  case h_2 h =>
    refine handles_same (fun state hstate => ?_) (.bind (setAddress_sameState _) fun _ => .pure _)
    simp [DeviceRequest.handle, hstate, htype, hreceptor, h]
  case h_3 h => exact getDescriptor_handles htype hreceptor h
  case h_5 h1 h5 h6 h9 =>
    refine handles_then (handles_set fun state hstate => ?_) fun _ => .pure _
    simp_all [DeviceRequest.handle]

theorem classRequest_handles (htype : r.type = 1) (hreceptor : r.receptor = 1) :
    Prog.Keeps (Handles r) (classRequest r) := by
  unfold classRequest
  split
  case h_1 h =>
    refine then_handles waitRxouti_sameState fun _ => .cases (fun hlen => ?_) fun hlen => ?_
    · refine handles_same (fun state hstate => ?_) (.bind (epRead_sameState 7) fun _ =>
        .modify fun _ => rfl)
      simp [DeviceRequest.handle, hstate, htype, hreceptor, h, hlen]
    · refine handles_set fun state hstate => ?_
      simp [DeviceRequest.handle, hstate, htype, hreceptor, h]
      exact hlen
  case h_2 h =>
    refine handles_same (fun state hstate => ?_) (.bind .get fun s => epWriteMin_sameState _ _)
    simp [DeviceRequest.handle, hstate, htype, hreceptor, h]
  case h_3 h =>
    refine .cases (fun hdte => ?_) fun hdte => ?_
    · refine handles_set fun state hstate => ?_
      simp [DeviceRequest.handle, hstate, htype, hreceptor, h]
      exact fun hzero => absurd hzero hdte
    · refine handles_same (fun state hstate => ?_) (.pure _)
      simp [DeviceRequest.handle, hstate, htype, hreceptor, h]
      exact fun hne => absurd hne hdte
  case h_4 h32 h33 h34 =>
    refine handles_set fun state hstate => ?_
    simp_all [DeviceRequest.handle]

theorem respond_state {s t : Endpoint0} (hrun : respond r s = some ((), t)) :
    t.state = r.handle s.state := by
  rw [respond, Prog.get_bind_run, Prog.ite_run, Prog.ite_run, Prog.ite_run] at hrun
  split_ifs at hrun with hstate hdevice hinterface
  · rw [DeviceRequest.handle, if_pos hstate, finish_sameState s () t hrun, hstate]
  · have hrest : Prog.Keeps (Handles r) (do
        if ← standardRequest r then finish : ControlM Unit) :=
      handles_then (standardRequest_handles hdevice.1 hdevice.2) fun _ =>
        .ite finish_sameState (.pure ())
    exact hrest s () t hrun hstate
  · have hrest : Prog.Keeps (Handles r) (do
        classRequest r
        finish : ControlM Unit) :=
      handles_then (classRequest_handles hinterface.1 hinterface.2) fun _ => finish_sameState
    exact hrest s () t hrun hstate
  · have hrest : Prog.Keeps (Handles r) (do
        setState .error
        finish : ControlM Unit) := by
      refine handles_then (handles_set fun state hstate => ?_) fun _ => finish_sameState
      rw [DeviceRequest.handle, if_neg hstate, if_neg hdevice, if_neg hinterface]
    exact hrest s () t hrun hstate

/-- Whatever comes of a request, the line state is that of the interrupt
as one step. -/
theorem setup_state {s t : Endpoint0} (hrun : setup r s = some ((), t)) :
    t.state = r.handle s.state := by
  by_cases hdir : r.direction = 1
  · rw [setup_in hdir] at hrun
    exact respond_state (s := s.answering) hrun
  · rw [setup, acknowledge, Prog.modify_bind_run, if_neg hdir] at hrun
    exact respond_state (s := { s.taken with stalled := false }) hrun

end Handles

end UsbConsole

end CpMega88
