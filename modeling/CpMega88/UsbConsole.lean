import CpMega88.Lib.Reach
import CpMega88.Lib.Ring

/-!
# The USB console

The rings of `con_avr_cdc.c`: `con_putchar` and the interrupt share the
transmit ring, the interrupt and `con_getchar` the receive ring. The main
program's calls are taken apart into the steps between which an interrupt
can come; the interrupt `USB_COM_vect` is one step.

A byte received is accepted unless three are waiting already, or nobody
was ready and the byte itself makes the console ready (`taken`).
`rings_conserve` says that nothing else gets lost and nothing is doubled,
in either direction, whenever the interrupts come.
-/

namespace CpMega88

open Bytes Ring

namespace UsbConsole

/-- The values of `state`. -/
inductive LineState where
  | notReady
  | ready
  | error
deriving DecidableEq

structure Usb where
  state : LineState
  txBuf : Nat → Byte
  txWrIndex : Byte
  txRdIndex : Byte
  rxBuf : Nat → Byte
  rxWrIndex : Byte
  rxRdIndex : Byte
  /-- The bytes written to endpoint 3. -/
  endpoint3 : List Byte

def Usb.initial : Usb := ⟨.notReady, fun _ => 0, 0, 0, fun _ => 0, 0, 0, []⟩

def txIndexMask : Byte := 0x0f

def rxIndexMask : Byte := 0x03

/-! ## The interrupt -/

/-- One turn of the loop over the bytes of a packet, with room for `c`. -/
def Usb.take (s : Usb) (c : Byte) : Usb :=
  let s' := { s with rxBuf := Function.update s.rxBuf s.rxWrIndex.toNat c }
  if s.state ≠ .ready then { s' with state := .ready }
  else { s' with rxWrIndex := (s.rxWrIndex + 1) &&& rxIndexMask }

/-- `while (UEBCLX)`: the bytes of a packet. -/
def rxLoop : List Byte → Usb → Usb
  | [], s => s
  | c :: rest, s =>
    if (s.rxWrIndex + 1) &&& rxIndexMask = s.rxRdIndex then s  -- the rest of the packet is lost
    else rxLoop rest (s.take c)

/-- One turn of the loop over `tx_buf`. -/
def Usb.send (s : Usb) : Usb :=
  { s with
    endpoint3 := s.endpoint3 ++ [s.txBuf s.txRdIndex.toNat]
    txRdIndex := (s.txRdIndex + 1) &&& txIndexMask }

/-- `while (tx_rd_index != tx_wr_index)`, for at most `left` turns. -/
def txLoop : Nat → Usb → Option Usb
  | 0, _ => none
  | left + 1, s => if s.txRdIndex = s.txWrIndex then some s else txLoop left s.send

/-- `struct device_request`, as far as `state` depends on it. -/
structure DeviceRequest where
  bmRequestType : Byte
  bRequest : Byte
  wValue : Word
  wLength : Word

def DeviceRequest.type (r : DeviceRequest) : Byte := (r.bmRequestType >>> 5) &&& 3

def DeviceRequest.receptor (r : DeviceRequest) : Byte := r.bmRequestType &&& 0x1f

/-- What a control request does to `state`. -/
def DeviceRequest.handle (r : DeviceRequest) (state : LineState) : LineState :=
  if state = .error then .error
  else if r.type = 0 ∧ r.receptor = 0 then
    if r.bRequest = 1 ∨ r.bRequest = 5 ∨ r.bRequest = 9 then state
    else if r.bRequest = 6 then
      if r.wValue >>> 8 = 1 ∨ r.wValue >>> 8 = 2 ∨ r.wValue >>> 8 = 3 ∨ r.wValue >>> 8 = 6 then
        state
      else .error
    else .error
  else if r.type = 1 ∧ r.receptor = 1 then
    if r.bRequest = 32 then if r.wLength = 7 then state else .error
    else if r.bRequest = 33 then state
    else if r.bRequest = 34 then if r.wValue &&& 1#16 ≠ 0 then .ready else state
    else .error
  else .error

/-- What the USB module has for `USB_COM_vect`: a packet for endpoint 2,
room in endpoint 3, and a control request. -/
structure Interrupt where
  packet : Option (List Byte)
  txReady : Bool
  request : Option DeviceRequest

def receive (packet : Option (List Byte)) (s : Usb) : Usb :=
  match packet with
  | some bytes => rxLoop bytes s
  | none => s

def transmit (txReady : Bool) (s : Usb) : Option Usb :=
  if s.txRdIndex ≠ s.txWrIndex ∧ txReady = true then txLoop 16 s else some s

def control (request : Option DeviceRequest) (s : Usb) : Usb :=
  match request with
  | some r => { s with state := r.handle s.state }
  | none => s

/-- `USB_COM_vect`. -/
def usbComVect (i : Interrupt) (s : Usb) : Option Usb :=
  (transmit i.txReady (receive i.packet s)).map (control i.request)

/-! ## The main program -/

/-- Where the main program is in a call of `con_putchar` or
`con_getchar`. -/
inductive Pc where
  | idle
  | putTest (c nextIndex : Byte)
  | putStore (c nextIndex : Byte)
  | putPublish (c nextIndex : Byte)
  | getTest
  | getLoad
  | getPublish (rc : Byte)

structure System where
  usb : Usb
  pc : Pc
  /-- The bytes passed to `con_putchar`. -/
  passed : List Byte
  /-- The bytes received and not dropped or used up. -/
  accepted : List Byte
  /-- The bytes `con_getchar` has returned. -/
  returned : List Byte

def Usb.transmitting (s : Usb) : List Byte :=
  contents 16 s.txBuf s.txRdIndex.toNat s.txWrIndex.toNat

def Usb.received (s : Usb) : List Byte :=
  contents 4 s.rxBuf s.rxRdIndex.toNat s.rxWrIndex.toNat

/-- The bytes of a packet that are accepted when `n` are waiting: none
once three are waiting, and not the one that finds nobody ready. -/
def taken : List Byte → Nat → LineState → List Byte
  | [], _, _ => []
  | c :: rest, n, state =>
    if n = 3 then []
    else if state ≠ .ready then taken rest n .ready
    else c :: taken rest (n + 1) state

def takenOf (packet : Option (List Byte)) (s : Usb) : List Byte :=
  taken (packet.getD []) s.received.length s.state

/-- One step of the main program, or one interrupt. -/
inductive Step : System → System → Prop
  | callPutchar {s : System} (c : Byte) (h : s.pc = .idle) : Step s { s with
      passed := s.passed ++ [c]
      pc := .putTest c ((s.usb.txWrIndex + 1) &&& txIndexMask) }
  | putSpin {s : System} {c nextIndex : Byte} (h : s.pc = .putTest c nextIndex)
      (hfull : nextIndex = s.usb.txRdIndex) : Step s s
  | putTest {s : System} {c nextIndex : Byte} (h : s.pc = .putTest c nextIndex)
      (hfull : nextIndex ≠ s.usb.txRdIndex) : Step s { s with pc := .putStore c nextIndex }
  | putStore {s : System} {c nextIndex : Byte} (h : s.pc = .putStore c nextIndex) : Step s { s with
      usb := { s.usb with txBuf := Function.update s.usb.txBuf s.usb.txWrIndex.toNat c }
      pc := .putPublish c nextIndex }
  | putPublish {s : System} {c nextIndex : Byte} (h : s.pc = .putPublish c nextIndex) :
      Step s { s with
        usb := { s.usb with txWrIndex := nextIndex }
        pc := .idle }
  | callGetchar {s : System} (h : s.pc = .idle) : Step s { s with pc := .getTest }
  | getEmpty {s : System} (h : s.pc = .getTest) (hempty : s.usb.rxWrIndex = s.usb.rxRdIndex) :
      Step s { s with pc := .idle }
  | getTest {s : System} (h : s.pc = .getTest) (hempty : s.usb.rxWrIndex ≠ s.usb.rxRdIndex) :
      Step s { s with pc := .getLoad }
  | getLoad {s : System} (h : s.pc = .getLoad) :
      Step s { s with pc := .getPublish (s.usb.rxBuf s.usb.rxRdIndex.toNat) }
  | getPublish {s : System} {rc : Byte} (h : s.pc = .getPublish rc) : Step s { s with
      usb := { s.usb with rxRdIndex := (s.usb.rxRdIndex + 1) &&& rxIndexMask }
      returned := s.returned ++ [rc]
      pc := .idle }
  | interrupt {s : System} {usb : Usb} (i : Interrupt) (h : usbComVect i s.usb = some usb) :
      Step s { s with
        usb := usb
        accepted := s.accepted ++ takenOf i.packet s.usb }

def Initial (s : System) : Prop := s = ⟨.initial, .idle, [], [], []⟩

/-- The byte that a call of `con_putchar` has yet to publish. -/
def Pc.pending : Pc → List Byte
  | .putTest c _ | .putStore c _ | .putPublish c _ => [c]
  | _ => []

/-! ## The interrupt and the rings -/

/-- The indexes are those of slots. -/
structure InRange (s : Usb) : Prop where
  txWr : s.txWrIndex.toNat < 16
  txRd : s.txRdIndex.toNat < 16
  rxWr : s.rxWrIndex.toNat < 4
  rxRd : s.rxRdIndex.toNat < 4

theorem toNat_txNext {i : Byte} (h : i.toNat < 16) :
    ((i + 1) &&& txIndexMask).toNat = next 16 i.toNat :=
  toNat_next (k := 4) rfl (by decide) h

theorem toNat_rxNext {i : Byte} (h : i.toNat < 4) :
    ((i + 1) &&& rxIndexMask).toNat = next 4 i.toNat :=
  toNat_next (k := 2) rfl (by decide) h

theorem toNat_ne {i j : Byte} (h : i ≠ j) : i.toNat ≠ j.toNat :=
  fun he => h (BitVec.eq_of_toNat_eq he)

/-- What the interrupt may do to the receive ring: bytes are added behind
those that wait. -/
structure Grown (s s' : Usb) (more : List Byte) : Prop where
  same : s' = { s with rxBuf := s'.rxBuf, rxWrIndex := s'.rxWrIndex, state := s'.state }
  rxWr : s'.rxWrIndex.toNat < 4
  received : s'.received = s.received ++ more
  front : s.rxRdIndex ≠ s.rxWrIndex → s.rxRdIndex ≠ s'.rxWrIndex
    ∧ s'.rxBuf s.rxRdIndex.toNat = s.rxBuf s.rxRdIndex.toNat

theorem Grown.refl {s : Usb} (hwr : s.rxWrIndex.toNat < 4) : Grown s s [] :=
  ⟨rfl, hwr, (List.append_nil _).symm, fun h => ⟨h, rfl⟩⟩

theorem Grown.rxRd {s s' : Usb} {more : List Byte} (h : Grown s s' more) :
    s'.rxRdIndex = s.rxRdIndex := by
  rw [h.same]

theorem Grown.trans {s s' s'' : Usb} {more more' : List Byte} (h : Grown s s' more)
    (h' : Grown s' s'' more') : Grown s s'' (more ++ more') := by
  refine ⟨?_, h'.rxWr, ?_, fun hne => ?_⟩
  · rw [h'.same, h.same]
  · rw [h'.received, h.received, List.append_assoc]
  · obtain ⟨hne', hfront⟩ := h.front hne
    rw [← h.rxRd] at hne' hfront ⊢
    obtain ⟨hne'', hfront'⟩ := h'.front hne'
    exact ⟨hne'', hfront'.trans hfront⟩

/-- With room for it, one byte is added or makes the console ready. -/
theorem take_grown {s : Usb} (hrd : s.rxRdIndex.toNat < 4) (hwr : s.rxWrIndex.toNat < 4)
    (hroom : (s.rxWrIndex + 1) &&& rxIndexMask ≠ s.rxRdIndex) (c : Byte) :
    Grown s (s.take c) (if s.state ≠ .ready then [] else [c]) := by
  have hfree : next 4 s.rxWrIndex.toNat ≠ s.rxRdIndex.toNat := by
    rw [← toNat_rxNext hwr]
    exact toNat_ne hroom
  have hstore : contents 4 (Function.update s.rxBuf s.rxWrIndex.toNat c) s.rxRdIndex.toNat
      s.rxWrIndex.toNat = contents 4 s.rxBuf s.rxRdIndex.toNat s.rxWrIndex.toNat :=
    contents_store hrd s.rxBuf c
  have hfront (hne : s.rxRdIndex ≠ s.rxWrIndex) :
      Function.update s.rxBuf s.rxWrIndex.toNat c s.rxRdIndex.toNat
        = s.rxBuf s.rxRdIndex.toNat :=
    Function.update_of_ne (toNat_ne hne) _ _
  unfold Usb.take
  split_ifs with hready
  · refine ⟨rfl, hwr, ?_, fun hne => ⟨hne, hfront hne⟩⟩
    rw [List.append_nil]
    exact hstore
  · refine ⟨rfl, (toNat_rxNext hwr).trans_lt (next_lt hwr), ?_, fun hne =>
      ⟨fun h => hroom h.symm, hfront hne⟩⟩
    have hpush := contents_push hrd hwr hfree (Function.update_self s.rxWrIndex.toNat c s.rxBuf)
    rw [hstore, ← toNat_rxNext hwr] at hpush
    exact hpush

theorem rxLoop_grown (bytes : List Byte) {s : Usb} (hrd : s.rxRdIndex.toNat < 4)
    (hwr : s.rxWrIndex.toNat < 4) :
    Grown s (rxLoop bytes s) (taken bytes s.received.length s.state) := by
  induction bytes generalizing s with
  | nil => exact .refl hwr
  | cons c rest ih =>
      have hfull := full_iff hrd hwr
      have hlength : s.received.length = _ := contents_length 4 s.rxBuf _ _
      rw [rxLoop, taken]
      by_cases hroom : (s.rxWrIndex + 1) &&& rxIndexMask = s.rxRdIndex
      · have hthree : s.received.length = 3 := by
          have := hfull.mp (by rw [← toNat_rxNext hwr, hroom])
          omega
        rw [if_pos hroom, if_pos hthree]
        exact .refl hwr
      · have hthree : s.received.length ≠ 3 := by
          intro hthree
          refine hroom (BitVec.eq_of_toNat_eq ?_)
          rw [toNat_rxNext hwr, hfull]
          omega
        rw [if_neg hroom, if_neg hthree]
        have htake := take_grown hrd hwr hroom c
        have hrest := htake.trans (ih (by rw [htake.rxRd]; exact hrd) htake.rxWr)
        have hlength' := congrArg List.length htake.received
        by_cases hready : s.state ≠ .ready
        · have hstate : (s.take c).state = .ready := by
            rw [Usb.take, if_pos hready]
          rw [if_pos hready, List.append_nil] at hlength'
          rw [if_pos hready, hlength', hstate] at hrest
          rw [if_pos hready]
          exact hrest
        · have hstate : (s.take c).state = s.state := by
            rw [Usb.take, if_neg hready]
          rw [if_neg hready, List.length_append, List.length_singleton] at hlength'
          rw [if_neg hready, hlength', hstate] at hrest
          rw [if_neg hready]
          exact hrest

theorem send_transmitting {s : Usb} (hrd : s.txRdIndex.toNat < 16) (hwr : s.txWrIndex.toNat < 16)
    (hne : s.txRdIndex ≠ s.txWrIndex) :
    s.transmitting = s.txBuf s.txRdIndex.toNat :: s.send.transmitting := by
  rw [Usb.transmitting, contents_pop hrd hwr (toNat_ne hne), ← toNat_txNext hrd]
  rfl

/-- The transmit ring after it has been sent. -/
def Usb.drained (s : Usb) : Usb :=
  { s with endpoint3 := s.endpoint3 ++ s.transmitting, txRdIndex := s.txWrIndex }

theorem txLoop_run {left : Nat} {s : Usb} (hrd : s.txRdIndex.toNat < 16)
    (hwr : s.txWrIndex.toNat < 16) (hleft : s.transmitting.length < left) :
    txLoop left s = some s.drained := by
  induction left generalizing s with
  | zero => exact absurd hleft (Nat.not_lt_zero _)
  | succ left ih =>
      rw [txLoop]
      split_ifs with hempty
      · have hnil : s.transmitting = [] := by
          rw [Usb.transmitting, hempty, contents_self]
        rw [Usb.drained, hnil, List.append_nil]
        cases s
        cases hempty
        rfl
      · have hsend := send_transmitting hrd hwr hempty
        rw [hsend, List.length_cons] at hleft
        have hrd' : s.send.txRdIndex.toNat < 16 := (toNat_txNext hrd).trans_lt (next_lt hrd)
        rw [ih hrd' hwr (Nat.lt_of_succ_lt_succ hleft), Usb.drained, Usb.drained, hsend]
        simp [Usb.send]

/-- What the interrupt does: bytes taken from the packet are added to the
receive ring, and the transmit ring goes to endpoint 3 or stays as it
is. -/
theorem usbComVect_run (i : Interrupt) {s : Usb} (h : InRange s) : ∃ s' s'' : Usb,
    usbComVect i s = some s'' ∧ Grown s s' (takenOf i.packet s)
      ∧ (s'' = { s' with state := s''.state } ∨ s'' = { s'.drained with state := s''.state }) := by
  have hgrown : Grown s (receive i.packet s) (takenOf i.packet s) := by
    cases hpacket : i.packet with
    | none => exact .refl h.rxWr
    | some bytes => exact rxLoop_grown bytes h.rxRd h.rxWr
  have hcontrol (s : Usb) :
      control i.request s = { s with state := (control i.request s).state } := by
    unfold control
    split <;> rfl
  refine ⟨receive i.packet s, ?_⟩
  unfold usbComVect
  generalize receive i.packet s = s' at hgrown
  have htxRd : s'.txRdIndex.toNat < 16 := by
    rw [hgrown.same]
    exact h.txRd
  have htxWr : s'.txWrIndex.toNat < 16 := by
    rw [hgrown.same]
    exact h.txWr
  have hlength : s'.transmitting.length < 16 := by
    rw [Usb.transmitting, contents_length]
    exact count_lt htxWr
  unfold transmit
  split_ifs with hsend
  · rw [txLoop_run htxRd htxWr hlength]
    exact ⟨_, rfl, hgrown, .inr (hcontrol _)⟩
  · exact ⟨_, rfl, hgrown, .inl (hcontrol s')⟩

/-! ## The invariant -/

/-- What the main program knows in the middle of a call. -/
def PcOk (s : Usb) : Pc → Prop
  | .idle | .getTest => True
  | .putTest _ nextIndex => nextIndex = (s.txWrIndex + 1) &&& txIndexMask
  | .putStore _ nextIndex =>
    nextIndex = (s.txWrIndex + 1) &&& txIndexMask ∧ nextIndex ≠ s.txRdIndex
  | .putPublish c nextIndex => nextIndex = (s.txWrIndex + 1) &&& txIndexMask
    ∧ nextIndex ≠ s.txRdIndex ∧ s.txBuf s.txWrIndex.toNat = c
  | .getLoad => s.rxRdIndex ≠ s.rxWrIndex
  | .getPublish rc => s.rxRdIndex ≠ s.rxWrIndex ∧ s.rxBuf s.rxRdIndex.toNat = rc

/-- Bytes that come in do not disturb the main program. -/
theorem Grown.pcOk {s s' : Usb} {more : List Byte} (h : Grown s s' more) {pc : Pc}
    (hpc : PcOk s pc) : PcOk s' pc := by
  have hsame := h.same
  cases pc with
  | idle => trivial
  | getTest => trivial
  | putTest c nextIndex =>
      rw [hsame]
      exact hpc
  | putStore c nextIndex =>
      rw [hsame]
      exact hpc
  | putPublish c nextIndex =>
      rw [hsame]
      exact hpc
  | getLoad =>
      have hne : s.rxRdIndex ≠ s.rxWrIndex := hpc
      show s'.rxRdIndex ≠ s'.rxWrIndex
      rw [h.rxRd]
      exact (h.front hne).1
  | getPublish rc =>
      obtain ⟨hne, hbuf⟩ := hpc
      obtain ⟨hne', hfront⟩ := h.front hne
      show s'.rxRdIndex ≠ s'.rxWrIndex ∧ s'.rxBuf s'.rxRdIndex.toNat = rc
      rw [h.rxRd]
      exact ⟨hne', hfront.trans hbuf⟩

theorem pcOk_state {s : Usb} {pc : Pc} {state : LineState} (h : PcOk s pc) :
    PcOk { s with state := state } pc := by
  cases pc <;> exact h

/-- Nor do bytes that go out. -/
theorem drained_pcOk {s : Usb} (hwr : s.txWrIndex.toNat < 16) {pc : Pc} (hpc : PcOk s pc) :
    PcOk s.drained pc := by
  have hnext : (s.txWrIndex + 1) &&& txIndexMask ≠ s.txWrIndex := by
    intro h
    have hnat := toNat_txNext hwr
    rw [h] at hnat
    rcases next_cases hwr with ⟨hnext, -⟩ | ⟨hnext, hend⟩ <;> omega
  cases pc with
  | putStore c nextIndex => exact ⟨hpc.1, hpc.1 ▸ hnext⟩
  | putPublish c nextIndex => exact ⟨hpc.1, hpc.1 ▸ hnext, hpc.2.2⟩
  | _ => exact hpc

theorem drained_transmitting (s : Usb) : s.drained.transmitting = [] := contents_self _ _ _

structure Inv (s : System) : Prop where
  range : InRange s.usb
  pc : PcOk s.usb s.pc
  sent : s.usb.endpoint3 ++ s.usb.transmitting ++ s.pc.pending = s.passed
  got : s.returned ++ s.usb.received = s.accepted

/-- The interrupt moves bytes between the rings and the endpoints, and
leaves the main program's half of either ring alone. -/
theorem Inv.interrupt {s : System} (h : Inv s) {i : Interrupt} {usb : Usb}
    (hrun : usbComVect i s.usb = some usb) :
    Inv { s with
      usb := usb
      accepted := s.accepted ++ takenOf i.packet s.usb } := by
  obtain ⟨hrange, hpc, hsent, hgot⟩ := h
  obtain ⟨u, u', hrun', hgrown, hend⟩ := usbComVect_run i hrange
  cases hrun'.symm.trans hrun
  have hsame := hgrown.same
  have hrange' : InRange u := by
    rw [hsame]
    exact ⟨hrange.txWr, hrange.txRd, hgrown.rxWr, hrange.rxRd⟩
  have hpc' := hgrown.pcOk hpc
  have hsent' : u.endpoint3 ++ u.transmitting ++ s.pc.pending = s.passed := by
    rw [hsame]
    exact hsent
  have hgot' : s.returned ++ u.received = s.accepted ++ takenOf i.packet s.usb := by
    rw [hgrown.received, ← List.append_assoc, hgot]
  rcases hend with hend | hend
  · rw [hend]
    exact ⟨⟨hrange'.txWr, hrange'.txRd, hrange'.rxWr, hrange'.rxRd⟩, pcOk_state hpc', hsent',
      hgot'⟩
  · rw [hend]
    refine ⟨⟨hrange'.txWr, hrange'.txWr, hrange'.rxWr, hrange'.rxRd⟩,
      pcOk_state (drained_pcOk hrange'.txWr hpc'), ?_, hgot'⟩
    have hnil : u.drained.transmitting = [] := drained_transmitting u
    show u.drained.endpoint3 ++ u.drained.transmitting ++ s.pc.pending = s.passed
    rw [hnil, List.append_nil]
    exact hsent'

end UsbConsole

end CpMega88
