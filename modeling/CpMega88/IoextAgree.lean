import CpMega88.IoextInStep

/-!
# Agreement on IOEXT

What the device sees in an iteration of its loop is what the host asks
for in the call it is in, and for an IN the host returns the byte that the
device drives: `agreement`, for every run in which no wait times out. The
invariant behind it holds in every run in which the host gives up only
while the device still waits for /IOE; in those runs the two never drive
the data lines at once (`no_fight`).

`fight_after_timeout` is a run in which the device notices /IOE just before
the host takes it back. The device answers the next call a phase too early.
-/

namespace CpMega88

open Bytes Handshake

namespace Ioext

/-! ## The lines -/

theorem getLsbD_ff {i : Nat} (hi : i < 8) : (0xff : Byte).getLsbD i = true := by
  have hones : (0xff : Byte) = BitVec.allOnes 8 := rfl
  rw [hones, BitVec.getLsbD_allOnes]
  exact decide_eq_true hi

theorem System.Line.host {s : System} {i : Nat} {level : Level} (h : s.Line i level)
    (hddrd : s.host.ddrd.getLsbD i = true) (hinput : (s.device.addr i).output = false) :
    level = s.host.portd.getLsbD i := by
  unfold System.Line at h
  rw [hddrd, hinput] at h
  exact h

theorem System.Line.device {s : System} {i : Nat} {level : Level} (h : s.Line i level)
    (hddrd : s.host.ddrd.getLsbD i = false) (houtput : (s.device.addr i).output = true) :
    level = (s.device.addr i).latch := by
  unfold System.Line at h
  rw [hddrd, houtput] at h
  exact h

/-! ## The bytes -/

/-- The first `i` bits of `x` are those of `y`, the others are clear. -/
def Collected (x : Byte) (i : Nat) (y : Byte) : Prop :=
  ∀ j < 8, x.getLsbD j = (decide (j < i) && y.getLsbD j)

theorem Collected.zero (y : Byte) : Collected 0 0 y := by
  intro j hj
  simp

theorem Collected.collect {x y : Byte} {i : Nat} {level : Level} (h : Collected x i y)
    (hi : i < 8) (hlevel : level = y.getLsbD i) : Collected (collect x i level) (i + 1) y := by
  intro j hj
  have hbit : (if level = HIGH then (1 : Byte) <<< i else 0).getLsbD j
      = (decide (j = i) && y.getLsbD j) := by
    subst hlevel
    rcases eq_or_ne j i with rfl | hne
    · split_ifs with hset
      · simp [hset, hj]
      · simp [Bool.eq_false_of_not_eq_true hset]
    · split_ifs with hset
      · simp only [BitVec.getLsbD_shiftLeft]
        have : ¬ (j - i = 0 ∧ ¬ j < i) := by omega
        simp [hne]
        omega
      · simp [hne]
  unfold Ioext.collect
  rw [BitVec.getLsbD_or, h j hj, hbit]
  rcases Nat.lt_trichotomy j i with hlt | rfl | hgt
  · simp [hlt, hlt.ne, Nat.lt_succ_of_lt hlt]
  · simp
  · simp [hgt.ne', Nat.not_lt.mpr hgt.le, Nat.not_lt.mpr (Nat.succ_le_of_lt hgt)]

theorem Collected.full {x y : Byte} (h : Collected x 8 y) : x = y := by
  apply BitVec.eq_of_getLsbD_eq
  intro j hj
  rw [h j hj, decide_eq_true hj, Bool.true_and]


/-! ## The iteration and the call -/

/-- What the device has seen in the iteration under way is what `c` asks
for. -/
def DevicePc.agrees (c : Call) : DevicePc → Prop
  | .idle => True
  | .readPort i port => i < 8 ∧ Collected port i c.port
  | .checkData port | .readW port => port = c.port
  | .outputReady port r | .lowReady port r | .waitInactive port r | .inputReady port r
  | .waitActive port r => port = c.port ∧ r = c.w
  | .outputAddr _ port _ | .writeAddr _ port _ => c = .ioIn port
  | .readData i port data => i < 8 ∧ ∃ val, c = .ioOut port val ∧ Collected data i val
  | .outputDone a | .lowDone a | .waitDone a | .inputAddr _ a | .inputDone a => c.Moves a

theorem Call.out_of_w {c : Call} (h : c.w = LOW) : ∃ val, c = .ioOut c.port val := by
  cases c with
  | ioOut port val => exact ⟨val, rfl⟩
  | ioIn port => cases h

theorem Call.in_of_w {c : Call} (h : c.w = HIGH) : c = .ioIn c.port := by
  cases c with
  | ioOut port val => cases h
  | ioIn port => rfl

theorem Device.step_agrees {d : Device} {c : Call} (h : d.pc.agrees c) {nIOE nDATA nW : Level}
    {lines : Nat → Level} {reply : Byte}
    (haddress : d.pc.server = .serve → d.pc.round = 0 →
      nW = c.w ∧ ∀ i < 8, lines i = c.port.getLsbD i)
    (hdata : d.pc.server = .serve → d.pc.round = 1 →
      ∀ port val, c = .ioOut port val → ∀ i < 8, lines i = val.getLsbD i) :
    (d.step nIOE nDATA nW lines reply).pc.agrees c := by
  fun_cases Device.step nIOE nDATA nW lines reply d
  all_goals simp only [‹d.pc = _›] at h haddress hdata ⊢
  all_goals first
    | exact h
    | skip
  · exact ⟨by decide, .zero _⟩
  · obtain ⟨hi, hport⟩ := h
    exact ⟨by omega, hport.collect hi ((haddress rfl rfl).2 _ hi)⟩
  · obtain ⟨hi, hport⟩ := h
    have hcollect := hport.collect hi ((haddress rfl rfl).2 _ hi)
    rw [show _ + 1 = 8 by omega] at hcollect
    exact hcollect.full
  · exact ⟨h, (haddress rfl rfl).1⟩
  · obtain ⟨rfl, hw⟩ := h
    exact Call.in_of_w hw.symm
  · obtain ⟨rfl, hw⟩ := h
    obtain ⟨val, hval⟩ := Call.out_of_w (hw.symm.trans (Bool.eq_false_of_not_eq_true ‹_›))
    exact ⟨by decide, val, hval, .zero _⟩
  · cases (show c = _ from h)
    rfl
  · obtain ⟨hi, val, rfl, hval⟩ := h
    exact ⟨by omega, val, rfl, hval.collect hi (hdata rfl rfl _ _ rfl _ hi)⟩
  · obtain ⟨hi, val, rfl, hval⟩ := h
    have hcollect := hval.collect hi (hdata rfl rfl _ _ rfl _ hi)
    rw [show _ + 1 = 8 by omega] at hcollect
    rw [hcollect.full]
    rfl
  · trivial

/-! ## The invariant -/

/-- What the call of the host has moved, once it has. -/
def HostPc.access : HostPc → Option Access
  | .inactivateData c data | .settleData c data _ => some (c.access data)
  | .setBack port data => some ⟨port, HIGH, data⟩
  | .backToRead port val true => some ⟨port, LOW, val⟩
  | _ => none

/-- The accesses of the host are the iterations of the device, and so is
the one it is about to log. -/
def System.logsOk (s : System) : Prop :=
  match s.host.pc.access with
  | none => s.device.iterations = s.host.accesses
  | some a => s.device.moved = s.host.accesses ++ [a]

structure Inv (s : System) : Prop where
  ioe : s.host.ioeOk
  pins : s.host.pinsOk
  ready : s.device.readyOk
  addr : s.device.addrOk
  inStep : InStep s.stage
  agrees : ∀ c, s.host.pc.call = some c → s.device.pc.agrees c
  logs : s.logsOk

theorem HostPc.round_le {pc : HostPc} (h : pc.asker ≠ .rest) : pc.round ≤ 1 := by
  cases pc <;> first | exact absurd rfl h | exact Nat.le_refl _ | exact Nat.zero_le _

theorem DevicePc.round_le (pc : DevicePc) : pc.round ≤ 1 := by
  cases pc <;> first | exact Nat.le_refl _ | exact Nat.zero_le _

/-- When the host is not at rest and they have completed the same rounds,
both are in the same half of the same access. -/
theorem same_round {s : System} (hrest : s.host.pc.asker ≠ .rest)
    (hcount : s.stage.served = s.stage.asked) : s.device.pc.round = s.host.pc.round := by
  have hhost := HostPc.round_le hrest
  have hdevice := DevicePc.round_le s.device.pc
  have hrounds : 2 * s.device.iterations.length + s.device.pc.round
    = 2 * s.host.accesses.length + s.host.pc.round := hcount
  omega

theorem DevicePc.idle_of_watch {pc : DevicePc} (hwatch : pc.server = .watch)
    (hround : pc.round = 0) : pc = .idle := by
  cases pc <;> first | rfl | contradiction

/-- Between two accesses the device is at the head of its loop. -/
theorem device_idle {s : System} (h : InStep s.stage) (hrest : s.host.pc.asker = .rest)
    (hround : s.host.pc.round ≠ 1) : s.device.pc = .idle := by
  obtain ⟨hwatch, hcount⟩ := h.rest hrest
  have hrounds : 2 * s.device.iterations.length + s.device.pc.round
    = 2 * s.host.accesses.length + s.host.pc.round := hcount
  have hhost : s.host.pc.round ≤ 2 := by
    unfold HostPc.round
    split <;> decide
  have hdevice := DevicePc.round_le s.device.pc
  exact DevicePc.idle_of_watch hwatch (by omega)

/-- While the device serves the address the host shows port and
direction. -/
theorem Inv.address_phase {s : System} (h : Inv s) (hserve : s.device.pc.server = .serve)
    (hround : s.device.pc.round = 0) : ∃ c, s.host.pc.call = some c
      ∧ s.host.ddrd = 0xff ∧ s.host.portd = c.port ∧ s.host.data = HIGH ∧ s.host.w = c.w := by
  obtain ⟨hask, hcount⟩ := h.inStep.serve hserve
  have hask : s.host.pc.asker = .ask := hask
  have hsame := same_round (by rw [hask]; nofun) hcount
  exact h.pins.address_shows hask (hsame.symm.trans hround)

theorem Inv.address_lines {s : System} (h : Inv s) {c : Call} (hc : s.host.pc.call = some c)
    {lines : Nat → Level} (hlines : ∀ i < 8, s.Line i (lines i))
    (hserve : s.device.pc.server = .serve) (hround : s.device.pc.round = 0) :
    s.host.w = c.w ∧ ∀ i < 8, lines i = c.port.getLsbD i := by
  obtain ⟨c', hc', hddrd, hportd, -, hw⟩ := h.address_phase hserve hround
  cases hc'.symm.trans hc
  refine ⟨hw, fun i hi => ?_⟩
  rw [← hportd]
  refine (hlines i hi).host (by rw [hddrd]; exact getLsbD_ff hi) ?_
  by_contra houtput
  obtain ⟨port, -, hone, -⟩ := h.addr.output_pc hi (Bool.eq_true_of_not_eq_false houtput)
  omega

/-- The lines in the data phase: the host drives the byte of an OUT, and
for an IN it has released them. -/
theorem Inv.data_phase {s : System} (h : Inv s) (hbusy : s.device.pc.server ≠ .watch)
    (hround : s.device.pc.round = 1) :
    ∃ c, s.host.pc.call = some c ∧ s.host.data = LOW ∧ s.host.exposes c := by
  obtain ⟨hrest, hcount⟩ := h.inStep.busy hbusy
  exact h.pins.data_shows hrest ((same_round hrest hcount).symm.trans hround)

theorem DevicePc.agrees.header_eq {pc : DevicePc} {c : Call} (h : pc.agrees c) {hd : Byte × Level}
    (hhd : pc.header = some hd) : hd = c.header := by
  cases pc <;> cases hhd
  case outputReady port r => exact Prod.ext h.1 h.2
  case lowReady port r => exact Prod.ext h.1 h.2
  case waitInactive port r => exact Prod.ext h.1 h.2
  case inputReady port r => exact Prod.ext h.1 h.2
  case waitActive port r => exact Prod.ext h.1 h.2
  case outputAddr i port reply =>
    cases (show c = _ from h)
    rfl
  case writeAddr i port reply =>
    cases (show c = _ from h)
    rfl
  case readData i port data =>
    obtain ⟨-, val, rfl, -⟩ := h
    rfl
  all_goals
    rw [show _ = c.access _ from h]
    cases c <;> rfl

/-- The parties never drive a data line at once. -/
theorem Inv.not_fight {s : System} (h : Inv s) : ¬ Fight s := by
  rintro ⟨i, hi, hddrd, houtput⟩
  obtain ⟨port, hheader, hround, hbusy⟩ := h.addr.output_pc hi houtput
  obtain ⟨c, hc, -, hexposes⟩ := h.data_phase hbusy hround
  have hw : (port, HIGH) = c.header := (h.agrees c hc).header_eq hheader
  rw [Call.in_of_w (congrArg Prod.snd hw).symm] at hexposes
  rw [show s.host.ddrd = 0 from hexposes] at hddrd
  simp at hddrd

theorem Inv.data_lines {s : System} (h : Inv s) {port val : Byte}
    (hc : s.host.pc.call = some (.ioOut port val)) {lines : Nat → Level}
    (hlines : ∀ i < 8, s.Line i (lines i)) (hserve : s.device.pc.server = .serve)
    (hround : s.device.pc.round = 1) : ∀ i < 8, lines i = val.getLsbD i := by
  intro i hi
  obtain ⟨c, hc', -, hexposes⟩ := h.data_phase (by rw [hserve]; nofun) hround
  cases hc'.symm.trans hc
  obtain ⟨hddrd, rfl⟩ := hexposes
  have hdrives : s.host.ddrd.getLsbD i = true := by rw [hddrd]; exact getLsbD_ff hi
  refine (hlines i hi).host hdrives ?_
  by_contra houtput
  exact h.not_fight ⟨i, hi, hdrives, Bool.eq_true_of_not_eq_false houtput⟩

/-! ## A step of the device -/

theorem Inv.device_agrees {s : System} (h : Inv s) {lines : Nat → Level}
    (hlines : ∀ i < 8, s.Line i (lines i)) (reply : Byte) {c : Call}
    (hc : s.host.pc.call = some c) :
    (s.device.step s.host.ioe s.host.data s.host.w lines reply).pc.agrees c := by
  refine Device.step_agrees (h.agrees c hc) (fun hserve hround => ?_) ?_
  · exact h.address_lines hc hlines hserve hround
  · rintro hserve hround port val rfl
    exact h.data_lines hc hlines hserve hround

/-- What an iteration has moved changes only while the device serves. -/
theorem Device.step_moved (nIOE nDATA nW : Level) (lines : Nat → Level) (reply : Byte)
    (d : Device) : (d.step nIOE nDATA nW lines reply).moved = d.moved ∨ d.pc.server = .serve := by
  unfold Device.moved
  fun_cases Device.step nIOE nDATA nW lines reply d
  all_goals simp only [‹d.pc = _›]
  all_goals first
    | exact .inl trivial
    | exact .inl rfl
    | exact .inr rfl
    | exact .inl (List.append_nil _)

theorem Device.step_iterations (nIOE nDATA nW : Level) (lines : Nat → Level) (reply : Byte)
    (d : Device) : (d.step nIOE nDATA nW lines reply).iterations = d.iterations
      ∨ d.pc.server = .release ∧ d.pc.round = 1 := by
  fun_cases Device.step nIOE nDATA nW lines reply d
  all_goals first
    | exact .inl rfl
    | skip
  rw [‹d.pc = _›]
  exact .inr ⟨rfl, rfl⟩

theorem HostPc.access_ask {pc : HostPc} (h : pc.asker = .ask) : pc.access = none := by
  cases pc <;> first | rfl | contradiction

theorem HostPc.access_withdraw {pc : HostPc} (h : pc.asker = .withdraw) (hround : pc.round = 1) :
    pc.access ≠ none := by
  cases pc <;> first | contradiction | exact Option.some_ne_none _

theorem Inv.device_logs {s : System} (h : Inv s) (nIOE nDATA nW : Level) (lines : Nat → Level)
    (reply : Byte) :
    System.logsOk { s with device := s.device.step nIOE nDATA nW lines reply } := by
  have hlogs := h.logs
  unfold System.logsOk at hlogs ⊢
  cases haccess : s.host.pc.access with
  | none =>
      rw [haccess] at hlogs
      rcases Device.step_iterations nIOE nDATA nW lines reply s.device with
        hsame | ⟨hserver, hround⟩
      · exact hsame.trans hlogs
      · obtain ⟨hwithdraw, hcount⟩ := h.inStep.release hserver
        have hwithdraw : s.host.pc.asker = .withdraw := hwithdraw
        have hsame := same_round (by rw [hwithdraw]; nofun) hcount
        exact absurd haccess (HostPc.access_withdraw hwithdraw (hsame.symm.trans hround))
  | some a =>
      rw [haccess] at hlogs
      rcases Device.step_moved nIOE nDATA nW lines reply s.device with hsame | hserve
      · exact hsame.trans hlogs
      · have hask : s.host.pc.asker = .ask := (h.inStep.serve hserve).1
        rw [HostPc.access_ask hask] at haccess
        cases haccess

theorem Inv.device_step {s : System} (h : Inv s) {lines : Nat → Level} (reply : Byte)
    (hlines : ∀ i < 8, s.Line i (lines i)) :
    Inv { s with device := s.device.step s.host.ioe s.host.data s.host.w lines reply } where
  ioe := h.ioe
  pins := h.pins
  ready := Device.step_readyOk h.ready _ _ _ _ _
  addr := Device.step_addrOk h.addr _ _ _ _ _
  inStep := h.inStep.step (stage_device h.ioe _ _ _ _)
  agrees _ hc := h.device_agrees hlines reply hc
  logs := h.device_logs _ _ _ _ _

/-! ## A step of the host -/

theorem Host.step_call {h : Host} {ready : Level} {pind : Byte} {c : Call}
    (hc : (h.step ready pind).pc.call = some c) : h.pc.call = some c := by
  revert hc
  fun_cases Host.step ready pind h <;> intro hc
  · exact hc
  all_goals
    rw [‹h.pc = _›]
    first | exact hc | cases hc

/-- A device that holds the acknowledgement in the data phase has moved
the byte of its iteration. -/
theorem DevicePc.hold_access {pc : DevicePc} (hhold : pc.server = .hold) (hround : pc.round = 1) :
    ∃ a, pc = .lowDone a ∨ pc = .waitDone a := by
  cases pc <;> first | contradiction | skip
  case lowDone a => exact ⟨a, .inl rfl⟩
  case waitDone a => exact ⟨a, .inr rfl⟩

/-- At the data acknowledgement the device has moved what the call asks
for, and drives what it has moved for an IN. -/
theorem Inv.held {s : System} (h : Inv s) (hhold : s.device.pc.server = .hold)
    (hround : s.device.pc.round = 1) {c : Call} (hc : s.host.pc.call = some c) :
    ∃ data, s.device.moved = s.device.iterations ++ [c.access data]
      ∧ (c.w = HIGH → Driven s.device.addr 8 data) := by
  have hagrees := h.agrees c hc
  have haddr := h.addr
  unfold Device.addrOk at haddr
  have hw {a : Access} (ha : a = c.access a.data) (hc : c.w = HIGH) : a.w = HIGH := by
    rw [ha, Call.in_of_w hc]
    rfl
  unfold Device.moved
  obtain ⟨a, hpc | hpc⟩ := DevicePc.hold_access hhold hround
  · rw [hpc] at hagrees haddr ⊢
    exact ⟨a.data, congrArg (_ ++ [·]) hagrees, fun hc => haddr.1 (hw hagrees hc)⟩
  · rw [hpc] at hagrees haddr ⊢
    exact ⟨a.data, congrArg (_ ++ [·]) hagrees, fun hc => haddr.1 (hw hagrees hc)⟩

theorem Inv.host_logs {s : System} (h : Inv s) {pind : Byte}
    (hpind : ∀ i < 8, s.Line i (pind.getLsbD i)) :
    System.logsOk { s with host := s.host.step s.ready pind } := by
  have hlogs := h.logs
  have hidle (hrest : s.host.pc.asker = .rest) (hround : s.host.pc.round ≠ 1) :
      s.device.moved = s.device.iterations := by
    unfold Device.moved
    rw [device_idle h.inStep hrest hround]
    exact List.append_nil _
  have hheld {c : Call} (hc : s.host.pc.call = some c) (hrest : s.host.pc.asker ≠ .rest)
      (hround : s.host.pc.round = 1) (hhold : s.device.pc.server = .hold ∧ s.stage.served
        = s.stage.asked) := h.held hhold.1 ((same_round hrest hhold.2).trans hround) hc
  unfold System.logsOk at hlogs ⊢
  fun_cases Host.step s.ready pind s.host
  all_goals simp only [HostPc.access, ‹s.host.pc = _›] at hlogs hidle hheld ⊢
  all_goals first
    | exact hlogs
    | skip
  · -- an OUT has been acknowledged
    have hack : s.device.pc.server.acknowledge = true := by
      have hresult := isReady_result ‹_›
      rw [System.ready_eq h.ready] at hresult
      exact Bool.not_inj hresult
    have hhold := h.inStep.acknowledged (by rw [System.stage, ‹s.host.pc = _›]; rfl) hack
    obtain ⟨data, hmoved, -⟩ := hheld rfl (fun he => by cases he) rfl hhold
    rw [hmoved, hlogs]
    rfl
  · -- the byte of an IN is on the lines
    have hhold := h.inStep.seen (by rw [System.stage, ‹s.host.pc = _›]; rfl)
    obtain ⟨data, hmoved, hdriven⟩ := hheld rfl (fun he => by cases he) rfl hhold
    have hpins := h.pins
    unfold Host.pinsOk at hpins
    simp only [‹s.host.pc = _›] at hpins
    have hdata : pind = data := by
      apply BitVec.eq_of_getLsbD_eq
      intro i hi
      have hpin := hdriven rfl i hi
      have hline := (hpind i hi).device (by rw [show s.host.ddrd = 0 from hpins.2]; simp)
        (by rw [hpin])
      rw [hline, hpin]
    rw [hmoved, hlogs, hdata]
  · rw [← hlogs]
    exact (hidle rfl (fun he => by cases he)).symm
  · rw [← hlogs]
    exact (hidle rfl (fun he => by cases he)).symm

theorem Inv.host_step {s : System} (h : Inv s) {pind : Byte}
    (hpind : ∀ i < 8, s.Line i (pind.getLsbD i))
    (hgive : (∃ c, s.host.pc = .revert c) → s.device.pc = .idle) :
    Inv { s with host := s.host.step s.ready pind } where
  ioe := Host.step_ioeOk h.ioe _ _
  pins := Host.step_pinsOk h.pins _ _
  ready := h.ready
  addr := h.addr
  inStep := h.inStep.step (stage_host h.ready h.inStep _ hgive)
  agrees _ hc := h.agrees _ (Host.step_call hc)
  logs := h.host_logs hpind

/-! ## Runs -/

theorem Inv.step {s t : System} (h : Inv s) (hstep : Step s t)
    (hgive : GivesUp s t → s.device.pc = .idle) : Inv t := by
  cases hstep with
  | call c hidle hddrd =>
      have hpc : s.device.pc = .idle :=
        device_idle h.inStep (by rw [hidle]; rfl) (by rw [hidle]; decide)
      have hstage := h.inStep
      have hioe := h.ioe
      have hlogs := h.logs
      unfold System.stage at hstage
      unfold Host.ioeOk at hioe
      unfold System.logsOk at hlogs
      rw [hidle] at hstage hioe hlogs
      refine ⟨hioe, hddrd, h.ready, h.addr, hstage, fun c' _ => ?_, hlogs⟩
      rw [hpc]
      trivial
  | memory portd ddrd data w hidle =>
      have hpins : Host.pinsOk
          { s.host with portd := portd, ddrd := ddrd, data := data, w := w } := by
        unfold Host.pinsOk
        simp only [hidle]
      exact ⟨h.ioe, hpins, h.ready, h.addr, h.inStep, h.agrees, h.logs⟩
  | host pind hbusy hpind =>
      refine h.host_step hpind fun hrevert => hgive ⟨hrevert, ?_⟩
      obtain ⟨c, hpc⟩ := hrevert
      simp only [Host.step, hpc]
  | device lines reply hlines => exact h.device_step reply hlines

theorem Inv.initial : Inv ⟨.initial, .initial⟩ := by
  refine ⟨rfl, trivial, rfl, fun _ _ => rfl, rfl, nofun, rfl⟩

/-- In a run in which the host gives up only while the device still waits
for /IOE at the head of its loop, host and device never drive a data line
at once. -/
theorem no_fight {s : System} (h : Reachable Initial Unnoticed s) : ¬ Fight s := by
  refine Inv.not_fight (h.invariant Inv ?_ ?_)
  · rintro s rfl
    exact .initial
  · rintro s t hinv ⟨hstep, hgive⟩
    exact hinv.step hstep hgive

/-- The host gives up, if at all, while the device waits for /IOE. -/
def System.unnoticed (s : System) : Bool :=
  match s.host.pc, s.device.pc with
  | .revert _, .idle => true
  | .revert _, _ => false
  | _, _ => true

theorem unnoticed_step {s t : System} (h : s.unnoticed = true) (hstep : Step s t) :
    Unnoticed s t := by
  refine ⟨hstep, ?_⟩
  rintro ⟨⟨c, hpc⟩, -⟩
  unfold System.unnoticed at h
  rw [hpc] at h
  cases hdevice : s.device.pc <;> rw [hdevice] at h <;> first | rfl | cases h

/-- The turns of an `io_in` up to the wait for /READY. -/
def askIn : List Turn := [.call (.ioIn 0x40), .host, .host, .host]

/-- What follows on the timeout: the host takes /IOE back. -/
def giveUp : List Turn := List.replicate 5 .host

/-- The turns of a device that has noticed /IOE, up to its second wait. -/
def answerLate : List Turn := List.replicate 14 (.device 0)

/-- The turns of an `io_out` up to the wait for /READY, and of a device
that answers an IN. -/
def askOut : List Turn :=
  [.call (.ioOut 0x41 0), .host, .host, .host, .host] ++ List.replicate 17 (.device 0)

/-- The device is late: it comes to the head of its loop after the host
has given up, and serves the next call, an OUT. -/
theorem no_fight_late : ∃ s : System, Reachable Initial Unnoticed s ∧ ¬ Fight s
    ∧ s.host.calls.length = 2 ∧ s.device.seen = [(0x41, LOW)] := by
  have hask : Reachable Initial Unnoticed _ :=
    reachable_turns (fun s t => unnoticed_step) askIn (.start rfl)
  have hwait := reachable_timeout (fun s t c timeout v hpc hstep => ⟨hstep, by
    rintro ⟨⟨c', hrevert⟩, -⟩
    cases hrevert.symm.trans hpc⟩) rfl rfl hask
  have hnext := reachable_turns (fun s t => unnoticed_step) (giveUp ++ askOut) hwait
  exact ⟨_, hnext, no_fight hnext, by decide +kernel, by decide +kernel⟩

/-- The device notices /IOE just before the host gives up. It takes the
address phase of the next call, an OUT, for the data phase of the IN. -/
theorem fight_after_timeout : ∃ s : System, Reachable Initial Step s
    ∧ s.host.ddrd = 0xff ∧ ∀ i < 8, (s.device.addr i).output = true := by
  have hall (s t : System) (_ : true = true) (hstep : Step s t) : Step s t := hstep
  have hask : Reachable Initial Step _ :=
    reachable_turns hall (askIn ++ [.device 0]) (.start rfl)
  have hwait := reachable_timeout (fun s t c timeout v _ hstep => hstep) rfl rfl hask
  have hnext := reachable_turns hall (giveUp ++ answerLate ++ askOut) hwait
  exact ⟨_, hnext, by decide +kernel, by decide +kernel⟩

/-! ## Calls and iterations -/

theorem DevicePc.release_access {pc : DevicePc} (hrelease : pc.server = .release)
    (hround : pc.round = 1) : ∃ a, pc.access = some a := by
  cases pc <;> first | contradiction | exact ⟨_, rfl⟩

theorem DevicePc.header_of_access {pc : DevicePc} {a : Access} (h : pc.access = some a) :
    pc.header = some a.header := by
  cases pc <;> cases h <;> rfl

theorem HostPc.access_stage {pc : HostPc} (h : pc.access ≠ none) :
    (pc.asker = .seen ∨ pc.asker = .withdraw) ∧ pc.round = 1 ∨ pc.asker = .rest ∧ pc.round = 2 := by
  cases pc with
  | inactivateData c data => exact .inl ⟨.inl rfl, rfl⟩
  | settleData c data v => exact .inl ⟨.inr rfl, rfl⟩
  | setBack port data => exact .inr ⟨rfl, rfl⟩
  | backToRead port val served =>
      cases served with
      | true => exact .inr ⟨rfl, rfl⟩
      | false => exact absurd rfl h
  | _ => exact absurd rfl h

theorem HostPc.access_call {pc : HostPc} {a : Access} (h : pc.access = some a) :
    ∃ c, pc.call = some c ∧ c.Moves a := by
  have hmoves (c : Call) (data : Byte) : c.Moves (c.access data) := by cases c <;> rfl
  cases pc with
  | inactivateData c data =>
      cases h
      exact ⟨c, rfl, hmoves c data⟩
  | settleData c data v =>
      cases h
      exact ⟨c, rfl, hmoves c data⟩
  | setBack port data =>
      cases h
      exact ⟨_, rfl, rfl⟩
  | backToRead port val served =>
      cases served with
      | true =>
          cases h
          exact ⟨_, rfl, rfl⟩
      | false => cases h
  | _ => cases h

/-- Once the host has the byte, so has the device, or it is through. -/
theorem Inv.device_of_access {s : System} (h : Inv s) (haccess : s.host.pc.access ≠ none) :
    s.device.pc = .idle ∨ ∃ a, s.device.pc.access = some a := by
  have hhold (hrest : s.host.pc.asker ≠ .rest) (hround : s.host.pc.round = 1)
      (hserver : s.device.pc.server = .hold) (hcount : s.stage.served = s.stage.asked) :
      ∃ a, s.device.pc.access = some a := by
    obtain ⟨a, hpc | hpc⟩ := DevicePc.hold_access hserver ((same_round hrest hcount).trans hround)
    · exact ⟨a, by rw [hpc]; rfl⟩
    · exact ⟨a, by rw [hpc]; rfl⟩
  rcases HostPc.access_stage haccess with ⟨hseen | hwithdraw, hround⟩ | ⟨hrest, hround⟩
  · obtain ⟨hserver, hcount⟩ := h.inStep.seen hseen
    exact .inr (hhold (by rw [hseen]; nofun) hround hserver hcount)
  · have hrest : s.host.pc.asker ≠ .rest := by rw [hwithdraw]; nofun
    rcases h.inStep.withdraw hwithdraw with ⟨hserver | hserver, hcount⟩ | ⟨hserver, hcount⟩
    · exact .inr (hhold hrest hround hserver hcount)
    · exact .inr (DevicePc.release_access hserver ((same_round hrest hcount).trans hround))
    · have hrounds : 2 * s.device.iterations.length + s.device.pc.round
        = 2 * s.host.accesses.length + s.host.pc.round + 1 := hcount
      have hle := DevicePc.round_le s.device.pc
      exact .inl (DevicePc.idle_of_watch hserver (by omega))
  · exact .inl (device_idle h.inStep hrest (by omega))

/-- An iteration that knows port and direction has those of the call. -/
theorem Inv.header_call {s : System} (h : Inv s) {hd : Byte × Level}
    (hhd : s.device.pc.header = some hd) : ∃ c, s.host.pc.call = some c ∧ hd = c.header := by
  cases hc : s.host.pc.call with
  | some c => exact ⟨c, rfl, (h.agrees c hc).header_eq hhd⟩
  | none =>
      have hpc : s.host.pc = .idle := by
        revert hc
        cases s.host.pc <;> intro hc <;> first | rfl | cases hc
      rw [device_idle h.inStep (by rw [hpc]; rfl) (by rw [hpc]; nofun)] at hhd
      cases hhd

/-- The iterations are the calls that have returned, and the one that the
host is in as far as the device has come with it. -/
theorem Inv.moved_cases {s : System} (h : Inv s) :
    s.device.moved = s.host.accesses
      ∧ s.device.seen = s.host.accesses.map Access.header ++ s.device.pc.header.toList
    ∨ ∃ c a, s.host.pc.call = some c ∧ c.Moves a ∧ s.device.moved = s.host.accesses ++ [a]
      ∧ s.device.seen = s.device.moved.map Access.header := by
  have hseen {a : Access} (ha : s.device.pc.access = some a) :
      s.device.seen = s.device.moved.map Access.header := by
    unfold Device.seen Device.moved
    rw [DevicePc.header_of_access ha, ha, List.map_append]
    rfl
  have hlogs := h.logs
  unfold System.logsOk at hlogs
  cases haccess : s.host.pc.access with
  | none =>
      rw [haccess] at hlogs
      cases hdevice : s.device.pc.access with
      | none =>
          left
          unfold Device.moved Device.seen
          rw [hdevice, hlogs]
          exact ⟨List.append_nil _, rfl⟩
      | some b =>
          right
          obtain ⟨c, hc, -⟩ := h.header_call (DevicePc.header_of_access hdevice)
          have hmoves : c.Moves b := by
            have hagrees := h.agrees c hc
            revert hdevice hagrees
            cases s.device.pc <;> intro hdevice hagrees <;> cases hdevice <;> exact hagrees
          refine ⟨c, b, hc, hmoves, ?_, hseen hdevice⟩
          unfold Device.moved
          rw [hdevice, hlogs]
          rfl
  | some a =>
      rw [haccess] at hlogs
      right
      obtain ⟨c, hc, hmoves⟩ := HostPc.access_call haccess
      refine ⟨c, a, hc, hmoves, hlogs, ?_⟩
      rcases h.device_of_access (by rw [haccess]; nofun) with hidle | ⟨b, hb⟩
      · unfold Device.seen Device.moved
        rw [hidle, List.map_append]
        rfl
      · exact hseen hb

/-! ## Runs in which no wait times out -/

/-- The host is not on its way to giving up. -/
def HostPc.inTime : HostPc → Prop
  | .checkAddress _ timeout _ => timeout ≠ 0
  | .revert _ | .revertData _ | .backToRead _ _ false => False
  | _ => True

/-- Every call that has returned has moved a byte. -/
def Host.callsOk (h : Host) : Prop :=
  ∃ cs, h.calls = cs ++ h.pc.call.toList ∧ List.Forall₂ Call.Moves cs h.accesses

structure InTimeInv (s : System) : Prop extends Inv s where
  inTime : s.host.pc.inTime
  calls : s.host.callsOk
  noError : s.device.error = false

theorem InTimeInv.host_inTime {s : System} (h : InTimeInv s) (htime : ¬ TimedOut s) (pind : Byte) :
    (s.host.step s.ready pind).pc.inTime := by
  have hinTime := h.inTime
  have hseen := h.inStep.seen
  unfold System.stage at hseen
  fun_cases Host.step s.ready pind s.host
  · exact hinTime
  all_goals simp only [‹s.host.pc = _›] at hinTime hseen
  all_goals first
    | trivial
    | exact hinTime
    | exact Nat.succ_ne_zero _
    | skip
  · exact absurd ⟨_, _, ‹_›⟩ htime
  · -- /READY has been seen, and the device holds it
    obtain ⟨hhold, -⟩ := hseen (if_neg hinTime)
    have hresult := isReady_result ‹_›
    have hhold : s.device.pc.server = .hold := hhold
    rw [System.ready_eq h.ready, hhold] at hresult
    cases hresult

theorem InTimeInv.host_calls {s : System} (h : InTimeInv s) (pind : Byte) :
    (s.host.step s.ready pind).callsOk := by
  have hinTime := h.inTime
  obtain ⟨cs, hcalls, hmoves⟩ := h.calls
  have hreturn {c : Call} {a : Access} (hc : s.host.pc.call = some c) (ha : c.Moves a) :
      ∃ cs', s.host.calls = cs' ++ none.toList
        ∧ List.Forall₂ Call.Moves cs' (s.host.accesses ++ [a]) := by
    refine ⟨cs ++ [c], ?_, List.rel_append hmoves (.cons ha .nil)⟩
    rw [hcalls, hc]
    exact (List.append_nil _).symm
  unfold Host.callsOk
  fun_cases Host.step s.ready pind s.host
  · exact ⟨cs, hcalls, hmoves⟩
  all_goals simp only [‹s.host.pc = _›] at hinTime hcalls hreturn ⊢
  all_goals first
    | exact ⟨cs, hcalls, hmoves⟩
    | exact hinTime.elim
    | exact hreturn rfl rfl

theorem InTimeInv.device_noError {s : System} (h : InTimeInv s) (lines : Nat → Level)
    (reply : Byte) :
    (s.device.step s.host.ioe s.host.data s.host.w lines reply).error = false := by
  have hnoError := h.noError
  have haddress := h.address_phase
  fun_cases Device.step s.host.ioe s.host.data s.host.w lines reply s.device
  all_goals first
    | exact hnoError
    | skip
  obtain ⟨c, -, -, -, hdata, -⟩ := haddress (by rw [‹s.device.pc = _›]; rfl)
    (by rw [‹s.device.pc = _›]; rfl)
  rw [hnoError, hdata]
  rfl

theorem InTimeInv.step {s t : System} (h : InTimeInv s) (hstep : InTime s t) : InTimeInv t := by
  obtain ⟨hstep, htime⟩ := hstep
  have hgive : ¬ GivesUp s t := by
    rintro ⟨⟨c, hpc⟩, -⟩
    have hinTime := h.inTime
    rw [hpc] at hinTime
    exact hinTime
  have hinv := h.toInv.step hstep fun hgives => (hgive hgives).elim
  obtain ⟨cs, hcalls, hmoves⟩ := h.calls
  cases hstep with
  | call c hidle hddrd =>
      refine ⟨hinv, trivial, ⟨cs, ?_, hmoves⟩, h.noError⟩
      rw [hcalls, hidle]
      exact congrArg (· ++ [c]) (List.append_nil cs)
  | memory portd ddrd data w hidle => exact ⟨hinv, h.inTime, ⟨cs, hcalls, hmoves⟩, h.noError⟩
  | host pind hbusy hpind => exact ⟨hinv, h.host_inTime htime pind, h.host_calls pind, h.noError⟩
  | device lines reply hlines => exact ⟨hinv, h.inTime, h.calls, h.device_noError lines reply⟩

/-- Neither party waits for a level that only the other can change while
the other does the same. -/
theorem Inv.not_both_spin {s : System} (h : Inv s) : ¬ (s.hostSpins ∧ s.deviceSpins) := by
  rintro ⟨hhost, hdevice⟩
  have hready : s.ready = !s.stage.server.acknowledge := System.ready_eq h.ready
  have hioe : s.host.ioe = !s.stage.asker.request := h.ioe
  refine h.inStep.not_both_wait ⟨?_, ?_⟩
  · unfold System.hostSpins at hhost
    cases hpc : s.host.pc <;> simp only [hpc] at hhost
    case waitAddress c timeout v =>
      rw [hready] at hhost
      exact .inl ⟨congrArg HostPc.asker hpc, Bool.not_inj hhost⟩
    case waitData c v =>
      rw [hready] at hhost
      exact .inl ⟨congrArg HostPc.asker hpc, Bool.not_inj hhost⟩
    case settleAddress c v =>
      rw [hready] at hhost
      exact .inr ⟨congrArg HostPc.asker hpc, Bool.not_inj hhost⟩
    case settleData c data v =>
      rw [hready] at hhost
      exact .inr ⟨congrArg HostPc.asker hpc, Bool.not_inj hhost⟩
  · unfold System.deviceSpins at hdevice
    cases hpc : s.device.pc <;> simp only [hpc] at hdevice
    case idle =>
      rw [hioe] at hdevice
      exact .inl ⟨congrArg DevicePc.server hpc, Bool.not_inj hdevice⟩
    case waitActive port r =>
      rw [hioe] at hdevice
      exact .inl ⟨congrArg DevicePc.server hpc, Bool.not_inj hdevice⟩
    case waitInactive port r =>
      rw [hioe] at hdevice
      exact .inr ⟨congrArg DevicePc.server hpc, Bool.not_inj hdevice⟩
    case waitDone a =>
      rw [hioe] at hdevice
      exact .inr ⟨congrArg DevicePc.server hpc, Bool.not_inj hdevice⟩

/-- The device goes on from the head of its loop in an address phase, and
from its second wait in a data phase. -/
theorem Inv.phases {s : System} (h : Inv s) (hioe : s.host.ioe = LOW) :
    (s.device.pc = .idle → s.host.data = HIGH)
      ∧ ∀ port r, s.device.pc = .waitActive port r → s.host.data = LOW := by
  have hrequest : s.host.pc.asker.request = true := by
    have hok := h.ioe
    unfold Host.ioeOk at hok
    rw [hioe] at hok
    exact Bool.not_inj hok.symm
  have hround (hwatch : s.device.pc.server = .watch) :
      s.host.pc.asker = .ask ∧ s.host.pc.round = s.device.pc.round := by
    obtain ⟨hask, hcount⟩ := h.inStep.watch hwatch hrequest
    have hask : s.host.pc.asker = .ask := hask
    exact ⟨hask, (same_round (by rw [hask]; nofun) hcount).symm⟩
  constructor
  · intro hpc
    rw [hpc] at hround
    obtain ⟨hask, hround⟩ := hround rfl
    obtain ⟨c, -, -, -, hdata, -⟩ := h.pins.address_shows hask hround
    exact hdata
  · intro port r hpc
    rw [hpc] at hround
    obtain ⟨hask, hround⟩ := hround rfl
    obtain ⟨c, -, hdata, -⟩ := h.pins.data_shows (by rw [hask]; nofun) hround
    exact hdata

theorem map_header {cs : List Call} {accesses : List Access}
    (h : List.Forall₂ Call.Moves cs accesses) :
    accesses.map Access.header = cs.map Call.header := by
  induction h with
  | nil => rfl
  | @cons c a cs accesses hmoves _ ih =>
      have hheader : a.header = c.header := by
        rw [show a = c.access a.data from hmoves]
        cases c <;> rfl
      rw [List.map_cons, List.map_cons, hheader, ih]

theorem InTimeInv.seen {s : System} (h : InTimeInv s) :
    s.device.seen <+: s.host.calls.map Call.header := by
  obtain ⟨cs, hcalls, hmoves⟩ := h.calls
  rw [hcalls, List.map_append, ← map_header hmoves]
  rcases h.moved_cases with ⟨-, hseen⟩ | ⟨c, a, hc, ha, hmoved, hseen⟩
  · rw [hseen]
    refine (List.prefix_append_right_inj _).mpr ?_
    cases hheader : s.device.pc.header with
    | none => exact List.nil_prefix
    | some hd =>
        obtain ⟨c, hc, rfl⟩ := h.header_call hheader
        rw [hc]
        exact List.prefix_rfl
  · have hheader := map_header (.cons ha .nil)
    rw [hseen, hmoved, hc, List.map_append, hheader]
    exact List.prefix_rfl

theorem InTimeInv.moved {s : System} (h : InTimeInv s) :
    List.Forall₂ Call.Moves (s.host.calls.take s.device.moved.length) s.device.moved := by
  obtain ⟨cs, hcalls, hmoves⟩ := h.calls
  rcases h.moved_cases with ⟨hmoved, -⟩ | ⟨c, a, hc, ha, hmoved, -⟩
  · rw [hmoved, ← hmoves.length_eq, hcalls, List.take_left]
    exact hmoves
  · have hlength : s.device.moved.length = s.host.calls.length := by
      rw [hmoved, hcalls, hc, List.length_append, List.length_append, hmoves.length_eq]
      rfl
    rw [hlength, List.take_length, hcalls, hmoved, hc]
    exact List.rel_append hmoves (.cons ha .nil)

theorem Inv.accesses_prefix {s : System} (h : Inv s) : s.host.accesses <+: s.device.moved := by
  rcases h.moved_cases with ⟨hmoved, -⟩ | ⟨c, a, -, -, hmoved, -⟩
  · rw [hmoved]
  · rw [hmoved]
    exact List.prefix_append _ _

/-- In every run in which no address-phase wait times out: the iterations
of the device see the ports and directions of the calls, in order; what
they move is what the calls ask for; what a call that has returned has
moved (for an IN the byte it returns) is what its iteration has moved.
The device never finds itself in the wrong phase, and the two never wait
for each other. -/
theorem agreement {s : System} (h : Reachable Initial InTime s) :
    s.device.seen <+: s.host.calls.map Call.header
      ∧ List.Forall₂ Call.Moves (s.host.calls.take s.device.moved.length) s.device.moved
      ∧ s.host.accesses <+: s.device.moved
      ∧ s.host.calls.length = s.host.accesses.length + s.host.pc.call.toList.length
      ∧ s.device.error = false
      ∧ (s.host.ioe = LOW → (s.device.pc = .idle → s.host.data = HIGH)
        ∧ ∀ port r, s.device.pc = .waitActive port r → s.host.data = LOW)
      ∧ ¬ (s.hostSpins ∧ s.deviceSpins) := by
  have hinv : InTimeInv s := by
    refine h.invariant InTimeInv ?_ fun s t => InTimeInv.step
    rintro s rfl
    exact ⟨.initial, trivial, ⟨[], rfl, .nil⟩, rfl⟩
  refine ⟨hinv.seen, hinv.moved, hinv.accesses_prefix, ?_, hinv.noError, hinv.phases,
    hinv.not_both_spin⟩
  obtain ⟨cs, hcalls, hmoves⟩ := hinv.calls
  rw [hcalls, List.length_append, hmoves.length_eq]

/-- No wait of the host has come to its end. -/
def System.inTime (s : System) : Bool :=
  match s.host.pc with
  | .waitAddress _ 0 _ => false
  | _ => true

theorem inTime_step {s t : System} (h : s.inTime = true) (hstep : Step s t) : InTime s t := by
  refine ⟨hstep, ?_⟩
  rintro ⟨c, v, hpc⟩
  unfold System.inTime at h
  rw [hpc] at h
  cases h

/-- The turns of an `io_in` that the device answers with 5Ah. -/
def answeredIn : List Turn :=
  askIn ++ List.replicate 13 (.device 0x5a) ++ List.replicate 5 .host ++
    List.replicate 2 (.device 0x5a) ++ List.replicate 6 .host ++
    List.replicate 19 (.device 0x5a) ++ List.replicate 4 .host ++
    List.replicate 10 (.device 0x5a) ++ List.replicate 3 .host

theorem agreement_in : ∃ s : System, Reachable Initial InTime s
    ∧ s.host.accesses = [⟨0x40, HIGH, 0x5a⟩] ∧ s.host.accesses <+: s.device.moved := by
  have h : Reachable Initial InTime _ :=
    reachable_turns (fun s t => inTime_step) answeredIn (.start rfl)
  exact ⟨_, h, by decide +kernel, (agreement h).2.2.1⟩

end Ioext

end CpMega88
