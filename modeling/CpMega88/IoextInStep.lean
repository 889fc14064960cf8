import CpMega88.Ioext
import CpMega88.Lib.Handshake

/-!
# The parties of IOEXT stay in step

An access to IOEXT is two rounds of a four-phase handshake: /IOE is the
request and /READY the acknowledgement, once for the address and once for
the data. `System.stage` reads the handshake off the program counters, and
each step of the bus is a step of the handshake (`stage_host`,
`stage_device`), as long as the host gives up only while the device has
not noticed /IOE. The pins of either party follow from its program counter
alone.
-/

namespace CpMega88

open Bytes Handshake

namespace Ioext

/-! ## The handshake -/

/-- The stage of the test after the address wait, which /READY may have
ended or the timeout. -/
def checkStage (timeout : Nat) : Asker := if timeout = 0 then .ask else .seen

theorem checkStage_request (timeout : Nat) : (checkStage timeout).request = true := by
  unfold checkStage
  split <;> rfl

def HostPc.asker : HostPc → Asker
  | .waitAddress _ _ _ | .revert _ | .waitData _ _ => .ask
  | .checkAddress _ timeout _ => checkStage timeout
  | .inactivateAddress _ | .load _ | .inactivateData _ _ => .seen
  | .settleAddress _ _ | .settleData _ _ _ => .withdraw
  | _ => .rest

/-- The rounds of the call that are over. -/
def HostPc.round : HostPc → Nat
  | .setData _ | .pullUps _ | .dataPhase _ | .activateData _ | .waitData _ _ | .load _
  | .inactivateData _ _ | .settleData _ _ _ => 1
  | .setBack _ _ | .backToRead _ _ true => 2
  | _ => 0

def DevicePc.server : DevicePc → Server
  | .idle | .waitActive _ _ => .watch
  | .readPort _ _ | .checkData _ | .readW _ | .outputReady _ _ | .outputAddr _ _ _
  | .writeAddr _ _ _ | .readData _ _ _ | .outputDone _ => .serve
  | .lowReady _ _ | .waitInactive _ _ | .lowDone _ | .waitDone _ => .hold
  | .inputReady _ _ | .inputAddr _ _ | .inputDone _ => .release

/-- The rounds of the iteration that are over. -/
def DevicePc.round : DevicePc → Nat
  | .waitActive _ _ | .outputAddr _ _ _ | .writeAddr _ _ _ | .readData _ _ _ | .outputDone _
  | .lowDone _ | .waitDone _ | .inputAddr _ _ | .inputDone _ => 1
  | _ => 0

def System.stage (s : System) : Handshake.State :=
  ⟨s.host.pc.asker, 2 * s.host.accesses.length + s.host.pc.round,
    s.device.pc.server, 2 * s.device.iterations.length + s.device.pc.round⟩

/-- /IOE is the request. -/
def Host.ioeOk (h : Host) : Prop := h.ioe = !h.pc.asker.request

theorem Host.step_ioeOk {h : Host} (hok : h.ioeOk) (ready : Level) (pind : Byte) :
    (h.step ready pind).ioeOk := by
  unfold Host.ioeOk at hok ⊢
  fun_cases Host.step ready pind h <;> simp_all [HostPc.asker, checkStage_request] <;> rfl

/-- /READY is the acknowledgement. -/
def Device.readyOk (d : Device) : Prop :=
  d.nReady = if d.pc.server.acknowledge then ⟨true, LOW⟩ else .input

theorem Device.step_readyOk {d : Device} (hok : d.readyOk) (nIOE nDATA nW : Level)
    (lines : Nat → Level) (reply : Byte) : (d.step nIOE nDATA nW lines reply).readyOk := by
  unfold Device.readyOk at hok ⊢
  fun_cases Device.step nIOE nDATA nW lines reply d <;>
    simp_all [DevicePc.server, Server.acknowledge, Pin.asOutput, Pin.write, Pin.input]

theorem System.ready_eq {s : System} (h : s.device.readyOk) :
    s.ready = !s.device.pc.server.acknowledge := by
  unfold System.ready
  rw [h]
  split <;> simp_all [Pin.input]

theorem isReady_result {v : Option Level} {d : Level} {ready : Bool}
    (h : isReady v d = .result ready) : d = !ready := by
  unfold isReady at h
  split at h
  · cases h
  · cases d <;> cases h <;> rfl

theorem stage_host {s : System} (hready : s.device.readyOk) (hinStep : InStep s.stage)
    (pind : Byte) (hgive : (∃ c, s.host.pc = .revert c) → s.device.pc = .idle) :
    Handshake.Step s.stage { s with host := s.host.step s.ready pind }.stage := by
  have hsample {v : Option Level} {ready : Bool} (h : isReady v s.ready = .result ready) :
      s.device.pc.server.acknowledge = ready := by
    have hresult := isReady_result h
    rw [System.ready_eq hready] at hresult
    exact Bool.not_inj hresult
  unfold System.stage at hinStep ⊢
  fun_cases Host.step s.ready pind s.host
  all_goals simp only [HostPc.asker, HostPc.round, ‹s.host.pc = _›] at hinStep ⊢
  all_goals first
    | exact .stay
    | exact .ask rfl
    | exact .see rfl (hsample ‹_›)
    | exact .withdraw rfl
    | exact .settle rfl (hsample ‹_›)
    | skip
  · -- the test after the address wait says ready
    have hack := hsample ‹_›
    unfold checkStage
    split
    · exact .see rfl hack
    · exact .stay
  · -- and it does not: the timeout has ended the wait
    have hack := hsample ‹_›
    unfold checkStage at hinStep ⊢
    split_ifs at hinStep ⊢
    · exact .stay
    · cases hserver : s.device.pc.server <;> rw [hserver] at hinStep hack <;>
        first | exact hinStep.elim | cases hack
  · rw [List.length_append]
    exact .stay
  · have hidle := hgive ⟨_, ‹_›⟩
    rw [hidle]
    exact .giveUp rfl rfl
  · rw [List.length_append]
    exact .stay

theorem stage_device {s : System} (hioe : s.host.ioeOk) (nDATA nW : Level) (lines : Nat → Level)
    (reply : Byte) : Handshake.Step s.stage
      { s with device := s.device.step s.host.ioe nDATA nW lines reply }.stage := by
  have hhigh (h : s.host.ioe = HIGH) : s.host.pc.asker.request = false := by
    rw [hioe] at h
    exact Bool.not_inj h
  have hlow (h : ¬ s.host.ioe = HIGH) : s.host.pc.asker.request = true := by
    rw [hioe] at h
    simpa using h
  unfold System.stage
  fun_cases Device.step s.host.ioe nDATA nW lines reply s.device
  all_goals simp only [DevicePc.server, DevicePc.round, ‹s.device.pc = _›]
  all_goals first
    | exact .stay
    | exact .notice rfl (hlow ‹_›)
    | exact .hold rfl
    | exact .done rfl
    | exact .release rfl (hhigh (Bool.eq_true_of_not_eq_false ‹_›))
    | skip
  rw [List.length_append]
  exact .done rfl

/-! ## The pins -/

/-- Who drives the data lines in the data phase, and with what. -/
def Host.exposes (h : Host) : Call → Prop
  | .ioOut _ val => h.ddrd = 0xff ∧ h.portd = val
  | .ioIn _ => h.ddrd = 0

/-- What holds of the host's pins at each of its statements. -/
def Host.pinsOk (h : Host) : Prop :=
  match h.pc with
  | .idle => True
  | .setPort _ | .setData _ | .revertData _ | .backToRead _ _ _ => h.ddrd = 0xff
  | .addressPhase c => h.ddrd = 0xff ∧ h.portd = c.port
  | .writeAccess port _ => h.ddrd = 0xff ∧ h.portd = port ∧ h.data = HIGH
  | .activateAddress c | .waitAddress c _ _ | .checkAddress c _ _ | .inactivateAddress c
  | .settleAddress c _ | .revert c =>
    h.ddrd = 0xff ∧ h.portd = c.port ∧ h.data = HIGH ∧ h.w = c.w
  | .pullUps _ | .setBack _ _ => h.ddrd = 0
  | .dataPhase c => h.exposes c
  | .activateData c | .waitData c _ | .inactivateData c _ | .settleData c _ _ =>
    h.data = LOW ∧ h.exposes c
  | .load port => h.data = LOW ∧ h.exposes (.ioIn port)

theorem Host.step_pinsOk {h : Host} (hok : h.pinsOk) (ready : Level) (pind : Byte) :
    (h.step ready pind).pinsOk := by
  unfold Host.pinsOk at hok ⊢
  fun_cases Host.step ready pind h <;> simp_all [Host.exposes, Call.port, Call.w]

/-- The first `i` data pins drive the bits of `reply`. -/
def Driven (addr : Nat → Pin) (i : Nat) (reply : Byte) : Prop :=
  ∀ j < i, addr j = ⟨true, reply.getLsbD j⟩

theorem Driven.write {addr : Nat → Pin} {i : Nat} {reply : Byte} (h : Driven addr i reply)
    (hi : (addr i).output = true) :
    Driven (Function.update addr i ((addr i).write (reply.getLsbD i))) (i + 1) reply := by
  intro j hj
  rcases Nat.lt_succ_iff_lt_or_eq.mp hj with hlt | rfl
  · rw [Function.update_of_ne hlt.ne]
    exact h j hlt
  · rw [Function.update_self, Pin.write, hi]

/-- The first `i` data pins are inputs. -/
def Released (addr : Nat → Pin) (i : Nat) : Prop := ∀ j < i, addr j = .input

theorem Released.input {addr : Nat → Pin} {i : Nat} (h : Released addr i) :
    Released (Function.update addr i .input) (i + 1) := by
  intro j hj
  rcases Nat.lt_succ_iff_lt_or_eq.mp hj with hlt | rfl
  · rw [Function.update_of_ne hlt.ne]
    exact h j hlt
  · exact Function.update_self _ _ _

/-- What holds of the data pins of the device at each of its statements. -/
def Device.addrOk (d : Device) : Prop :=
  match d.pc with
  | .outputAddr i _ reply => i < 8 ∧ Driven d.addr i reply
  | .writeAddr i _ reply => i < 8 ∧ Driven d.addr i reply ∧ (d.addr i).output = true
  | .outputDone a | .lowDone a | .waitDone a =>
    (a.w = HIGH → Driven d.addr 8 a.data) ∧ (a.w = LOW → Released d.addr 8)
  | .inputAddr i a => i < 8 ∧ a.w = HIGH ∧ Released d.addr i
  | _ => Released d.addr 8

theorem Device.step_addrOk {d : Device} (hok : d.addrOk) (nIOE nDATA nW : Level)
    (lines : Nat → Level) (reply : Byte) : (d.step nIOE nDATA nW lines reply).addrOk := by
  unfold Device.addrOk at hok ⊢
  fun_cases Device.step nIOE nDATA nW lines reply d
  all_goals simp only [‹d.pc = _›] at hok ⊢
  all_goals first
    | exact hok
    | skip
  · -- the answer begins
    exact ⟨by decide, nofun⟩
  · obtain ⟨hi, hdriven⟩ := hok
    refine ⟨hi, fun j hj => ?_, ?_⟩
    · rw [Function.update_of_ne hj.ne]
      exact hdriven j hj
    · rw [Function.update_self]
      rfl
  · obtain ⟨hi, hdriven, houtput⟩ := hok
    exact ⟨by omega, hdriven.write houtput⟩
  · obtain ⟨hi, hdriven, houtput⟩ := hok
    refine ⟨fun _ => ?_, nofun⟩
    have hwrite := hdriven.write houtput
    rwa [show _ + 1 = 8 by omega] at hwrite
  · -- the bits of an OUT are all read
    exact ⟨nofun, fun _ => hok⟩
  · exact ⟨by decide, ‹_›, nofun⟩
  · exact hok.2 (Bool.eq_false_of_not_eq_true ‹_›)
  · obtain ⟨hi, hw, hreleased⟩ := hok
    exact ⟨by omega, hw, hreleased.input⟩
  · obtain ⟨hi, hw, hreleased⟩ := hok
    have hinput := hreleased.input
    rwa [show _ + 1 = 8 by omega] at hinput

/-- Only while it answers an IN does the device drive a data line. -/
theorem Device.addrOk.output_pc {d : Device} (hok : d.addrOk) {i : Nat} (hi : i < 8)
    (houtput : (d.addr i).output = true) :
    ∃ port, d.pc.header = some (port, HIGH) ∧ d.pc.round = 1 ∧ d.pc.server ≠ .watch := by
  have hnot (hreleased : Released d.addr 8) : False := by
    rw [hreleased i hi] at houtput
    cases houtput
  have hw {a : Access} (h : a.w = LOW → Released d.addr 8) : a.header = (a.port, HIGH) := by
    cases ha : a.w
    · exact (hnot (h ha)).elim
    · rw [Access.header, ha]
  unfold Device.addrOk at hok
  cases hpc : d.pc <;> rw [hpc] at hok
  case outputAddr i port reply => exact ⟨port, rfl, rfl, nofun⟩
  case writeAddr i port reply => exact ⟨port, rfl, rfl, nofun⟩
  case outputDone a => exact ⟨a.port, congrArg some (hw hok.2), rfl, nofun⟩
  case lowDone a => exact ⟨a.port, congrArg some (hw hok.2), rfl, nofun⟩
  case waitDone a => exact ⟨a.port, congrArg some (hw hok.2), rfl, nofun⟩
  case inputAddr i a => exact ⟨a.port, congrArg some (by rw [Access.header, hok.2.1]), rfl, nofun⟩
  all_goals exact (hnot hok).elim

/-- In the address phase the host shows the port and the direction. -/
theorem Host.pinsOk.address_shows {h : Host} (hok : h.pinsOk) (hask : h.pc.asker = .ask)
    (hround : h.pc.round = 0) : ∃ c, h.pc.call = some c
      ∧ h.ddrd = 0xff ∧ h.portd = c.port ∧ h.data = HIGH ∧ h.w = c.w := by
  unfold Host.pinsOk at hok
  cases hpc : h.pc <;> rw [hpc] at hok hask hround
  case waitAddress c timeout v => exact ⟨c, rfl, hok⟩
  case checkAddress c timeout v => exact ⟨c, rfl, hok⟩
  case revert c => exact ⟨c, rfl, hok⟩
  all_goals contradiction

/-- In the data phase it shows or expects the byte. -/
theorem Host.pinsOk.data_shows {h : Host} (hok : h.pinsOk) (hrest : h.pc.asker ≠ .rest)
    (hround : h.pc.round = 1) : ∃ c, h.pc.call = some c ∧ h.data = LOW ∧ h.exposes c := by
  unfold Host.pinsOk at hok
  cases hpc : h.pc <;> rw [hpc] at hok hrest hround
  case waitData c v => exact ⟨c, rfl, hok⟩
  case load port => exact ⟨_, rfl, hok⟩
  case inactivateData c data => exact ⟨c, rfl, hok⟩
  case settleData c data v => exact ⟨c, rfl, hok⟩
  all_goals contradiction

end Ioext

end CpMega88
