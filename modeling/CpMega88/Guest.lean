import CpMega88.ConsoleInput
import CpMega88.ConsoleText
import CpMega88.Cpu8080Runs
import CpMega88.FlagFormat
import CpMega88.Isolation

/-!
# A guest on the machine

`in` and `out` of `machine.c` behind the callbacks of a core. A call that
does not come back takes the machine with it (`none`), and the guest is
not seen again.

What an instruction does outside the processor is a list of stores and
port calls (`exec_touched`); what a core may do besides is in its
registers (`Processor`). So a guest, whatever its program, is a list of
the events of `Event` (`guest_events`), and what each of those leaves
alone, it leaves alone for good (`guest_bounded`).
-/

namespace CpMega88

open Bytes Runs

variable {δ σ : Type}

namespace Isa

/-! ## Outside the processor -/

inductive Touch where
  | store (addr : Word) (v : Byte)
  | input (port : Byte)
  | output (port val : Byte)

section

variable (ports : Ports δ)

def Touch.apply : Touch → Mem × δ → Mem × δ
  | .store addr v, m => (Function.update m.1 addr v, m.2)
  | .input port, m => (ports.input port m.1 m.2).2
  | .output port val, m => ports.output port val m.1 m.2

/-- `m'` is what some touches make of `m`. -/
def Touched (m m' : Mem × δ) : Prop :=
  ∃ ts : List Touch, m' = ts.foldl (fun m t => t.apply ports m) m

theorem Touched.refl (m : Mem × δ) : Touched ports m m := ⟨[], rfl⟩

theorem Touched.one (t : Touch) (m : Mem × δ) : Touched ports m (t.apply ports m) := ⟨[t], rfl⟩

variable {ports}

theorem Touched.trans {m m' m'' : Mem × δ} (h : Touched ports m m')
    (h' : Touched ports m' m'') : Touched ports m m'' := by
  obtain ⟨ts, rfl⟩ := h
  obtain ⟨ts', rfl⟩ := h'
  exact ⟨ts ++ ts', List.foldl_append.symm⟩

end

def State.outside (s : State δ) : Mem × δ := (s.mem, s.dev)

section

variable (ports : Ports δ)

theorem store_touched (s : State δ) (addr : Word) (v : Byte) :
    Touched ports s.outside (s.store addr v).outside :=
  .one ports (.store addr v) _

theorem push_touched (s : State δ) (hi lo : Byte) :
    Touched ports s.outside (s.push hi lo).outside :=
  (Touched.one ports (.store (s.sp - 1) hi) _).trans (.one ports (.store (s.sp - 1 - 1) lo) _)

/-- Only a write to M leaves the processor. -/
theorem set_touched (s : State δ) (r : Reg) (v : Byte) :
    Touched ports s.outside (s.set r v).outside := by
  cases r with
  | m => exact store_touched ports s _ v
  | b | c | d | e | h | l | a => exact .refl ports _

theorem exec_touched (aux : AuxCarry) (i : Instr) (s : State δ) :
    Touched ports s.outside (exec aux ports i s).outside := by
  cases i with
  | mov dst src => exact set_touched ports s dst _
  | mvi dst => exact set_touched ports s.next dst _
  | inr r => exact set_touched ports s r _
  | dcr r => exact set_touched ports s r _
  | stax rp => exact store_touched ports s _ _
  | sta => exact store_touched ports s.next.next _ _
  | shld =>
      exact (store_touched ports s.next.next s.imm16 s.l).trans
        (store_touched ports (s.next.next.store s.imm16 s.l) _ s.h)
  | xthl =>
      exact (store_touched ports s s.sp s.l).trans
        (store_touched ports (s.store s.sp s.l) (s.sp + 1) s.h)
  | push rp => exact push_touched ports s _ _
  | call => exact push_touched ports s.next.next _ _
  | rst n => exact push_touched ports s _ _
  | callIf cc =>
      rw [exec]
      split
      · exact push_touched ports s.next.next _ _
      · exact .refl ports _
  | retIf cc | jmpIf cc =>
      rw [exec]
      split <;> exact .refl ports _
  | lxi rp | inx rp | dcx rp => cases rp <;> exact .refl ports _
  | pop rp => cases rp <;> exact .refl ports _
  | input => exact .one ports (.input s.imm) s.outside
  | output => exact .one ports (.output s.imm s.a) s.outside
  | _ => exact .refl ports _

end

end Isa

/-! ## Processors -/

open Isa (Touch Touched)

/-- What a core shows of itself: its steps, memory and devices, and what
has to hold of it between them. -/
structure Processor (ports : Ports δ) (σ : Type) where
  step : σ → σ × Bool
  outside : σ → Mem × δ
  sound : σ → Prop
  keeps : ∀ s, sound s → (step s).2 = false → sound (step s).1
  touched : ∀ s, sound s → Touched ports (outside s) (outside (step s).1)

theorem Processor.run_touched {ports : Ports δ} (p : Processor ports σ) (n : Nat) {s : σ}
    (h : p.sound s) : Touched ports (p.outside s) (p.outside (run p.step n s).1) := by
  induction n generalizing s with
  | zero => exact .refl ports _
  | succ n ih =>
      have hfirst := p.touched s h
      cases hgo : (p.step s).2 with
      | true =>
          rw [run_succ_stop hgo]
          exact hfirst
      | false =>
          rw [run_succ_go hgo]
          exact hfirst.trans (ih (p.keeps s h hgo))

/-- The C core. -/
def Cpu8080.processor (ports : Ports δ) : Processor ports (Cpu8080.Work δ) where
  step := machine ports
  outside := fun w => (w.mem, w.dev)
  sound := fun _ => True
  keeps := fun _ _ _ => trivial
  touched := by
    intro w _
    by_cases hdaa : Isa.decode (w.mem w.pc) = .daa
    · have hstep := congrArg Isa.State.outside (step_daa ports hdaa)
      show Touched ports _ (step ports w).2.arch.outside
      rw [hstep]
      exact .refl ports _
    · have hstep := congrArg Isa.State.outside (step_refines ports w hdaa).1
      show Touched ports _ (step ports w).2.arch.outside
      rw [hstep]
      exact Isa.exec_touched ports _ _ w.arch.next

namespace I8080

theorem abs_outside (s : Avr.State (Bus δ)) : (abs s).outside = (s.bus.mem, s.bus.dev) := rfl

theorem step_own_touched (env : Env δ) {s : Avr.State (Bus δ)} (hz : s.r r1 = 0#8)
    (hown : (abs s).imm ∈ ownOpcodes) :
    Touched env.ports (abs s).outside (abs (step env s).1).outside
      ∧ ((step env s).2 = false → (step env s).1.r r1 = 0#8) := by
  obtain ⟨s', hrun, habs, hz'⟩ := fetch_run env hz
  have hout : (abs s').outside = (abs s).outside :=
    (congrArg Isa.State.outside habs).trans rfl
  simp only [ownOpcodes, List.mem_cons, List.not_mem_nil, or_false] at hown
  rcases hown with hop | hop | hop
  · -- DAA
    have hentry : entry env 0x27#8 = daaOp := rfl
    rw [hop, hentry] at hrun
    obtain ⟨f, -, hdaa⟩ := daaOp_reaches s' hz' decide_eq_true_iff.symm decide_eq_true_iff.symm
    have hsame := congrArg Isa.State.outside hdaa.stands
    rw [step, hrun]
    refine ⟨?_, fun _ => hdaa.zero⟩
    rw [hsame, ← hout]
    exact .refl env.ports _
  · -- PUSH PSW
    obtain ⟨hz2, hpush⟩ := step_push env hz hop
    rw [hpush]
    exact ⟨Isa.push_touched env.ports (abs s).next _ _, fun _ => hz2⟩
  · -- HLT
    have hentry : entry env 0x76#8 = haltOp := rfl
    rw [hop, hentry] at hrun
    have hbus : (haltOp s').2.bus = s'.bus := rfl
    have hsame : (abs (haltOp s').2).outside = (abs s').outside := by
      rw [abs_outside, hbus, abs_outside]
    rw [step, hrun, hsame, hout]
    refine ⟨.refl env.ports _, fun hgo => ?_⟩
    cases hgo

/-- The assembly core. -/
def processor (env : Env δ) : Processor env.ports (Avr.State (Bus δ)) where
  step := step env
  outside := fun s => (s.bus.mem, s.bus.dev)
  sound := fun s => s.r r1 = 0#8
  keeps := by
    intro s hz hgo
    by_cases hown : (abs s).imm ∈ ownOpcodes
    · exact (step_own_touched env hz hown).2 hgo
    · exact (step_refines env s hz hown).2.2
  touched := by
    intro s hz
    by_cases hown : (abs s).imm ∈ ownOpcodes
    · exact (step_own_touched env hz hown).1
    · have hstep := congrArg Isa.State.outside (step_refines env s hz hown).1
      show Touched env.ports _ (abs (step env s).1).outside
      rw [hstep]
      exact Isa.exec_touched env.ports _ _ (abs s).next

end I8080

/-! ## The machine behind the callbacks -/

namespace Machine

open Fat (Volume fatSeek fatRead)

/-- What a call of the machine leaves of memory and machine. -/
def back (m : Mem) (r : Option State) : Mem × Option State :=
  match r with
  | some s => (s.sram, some s)
  | none => (m, none)

/-- `in` and `out`, with the RAM in step. -/
def ports (fuel : Nat) : Ports (Option State) where
  input := fun port m dev =>
    let r := dev.bind fun s => input port { s with sram := m }
    ((r.map Prod.fst).getD 0xff, back m (r.map Prod.snd))
  output := fun port val m dev =>
    back m (dev.bind fun s => (out fuel port val { s with sram := m }).map Prod.snd)

/-- The machine with the memory that the core has. -/
def joined (m : Mem × Option State) : Option State := m.2.map fun s => { s with sram := m.1 }

theorem joined_back (m : Mem) (r : Option State) : joined (back m r) = r := by
  cases r <;> rfl

def Touch.event : Touch → Event
  | .store addr v => .poke addr v
  | .input port => .input port
  | .output port val => .out port val

/-- What the guest does, as opposed to the monitor. -/
def Event.ByGuest : Event → Prop
  | .out _ _ | .input _ | .poke _ _ => True
  | _ => False

theorem byGuest_event (t : Touch) : (Touch.event t).ByGuest := by
  cases t <;> exact trivial

theorem joined_apply (fuel : Nat) (t : Touch) (m : Mem × Option State) :
    joined (t.apply (ports fuel) m)
      = (joined m).bind fun s => ((Touch.event t).run fuel s).map Prod.snd := by
  obtain ⟨mem, dev⟩ := m
  cases dev with
  | none => cases t <;> rfl
  | some s =>
      cases t with
      | store addr v => rfl
      | input port =>
          show joined (back mem _) = ((discard (input port) : MachineM Unit) _).map Prod.snd
          rw [joined_back, Prog.discard_state]
          rfl
      | output port val => exact joined_back mem _

theorem joined_foldl (fuel : Nat) (ts : List Touch) :
    ∀ {m : Mem × Option State} {s : State},
      joined (ts.foldl (fun m t => t.apply (ports fuel) m) m) = some s →
        ∃ s₀, joined m = some s₀
          ∧ Prog.runAll (Event.run fuel) (ts.map Touch.event) s₀ = some ((), s) := by
  induction ts with
  | nil =>
      intro m s h
      exact ⟨s, h, rfl⟩
  | cons t ts ih =>
      intro m s h
      obtain ⟨s₁, hfirst, hrest⟩ := ih h
      rw [joined_apply] at hfirst
      obtain ⟨s₀, hs₀, hrun⟩ := Option.bind_eq_some_iff.mp hfirst
      obtain ⟨⟨u, s₂⟩, hevent, rfl⟩ := Option.map_eq_some_iff.mp hrun
      exact ⟨s₀, hs₀, (Prog.bind_of_run hevent _).trans hrest⟩

/-- A guest is, to the machine, a list of port operations and of writes to
RAM: whatever its program, on either core, after any number of steps. -/
theorem guest_events {fuel : Nat} (p : Processor (ports fuel) σ) (n : Nat) {c : σ} {s : State}
    (hsound : p.sound c) (h : joined (p.outside (run p.step n c).1) = some s) :
    ∃ s₀ es, joined (p.outside c) = some s₀ ∧ (∀ e ∈ es, Event.ByGuest e)
      ∧ Prog.runAll (Event.run fuel) es s₀ = some ((), s) := by
  obtain ⟨ts, hts⟩ := p.run_touched n hsound
  rw [hts] at h
  obtain ⟨s₀, hs₀, hrun⟩ := joined_foldl fuel ts h
  refine ⟨s₀, ts.map Touch.event, hs₀, fun e he => ?_, hrun⟩
  obtain ⟨t, -, rfl⟩ := List.mem_map.mp he
  exact byGuest_event t

/-! ## What a guest cannot change -/

/-- What no port operation touches: the monitor's settings and the
EEPROM, and of the volume all but the place in the open file. -/
structure Bounded (s s' : State) : Prop where
  wrPrt : s'.wrPrt = s.wrPrt
  vtCnv : s'.vtCnv = s.vtCnv
  sdFat : s'.sdFat = s.sdFat
  eeprom : s'.eeprom = s.eeprom
  geometry : s'.volume.toGeometry = s.volume.toGeometry
  dirCluster : s'.volume.dirCluster = s.volume.dirCluster
  dirOffset : s'.volume.dirOffset = s.volume.dirOffset
  fileCluster : s'.volume.fileCluster = s.volume.fileCluster
  fileSize : s'.volume.fileSize = s.volume.fileSize
  console : Onward s.console s'.console

instance : IsPreorder State Bounded where
  refl _ := ⟨rfl, rfl, rfl, rfl, rfl, rfl, rfl, rfl, rfl, Std.Refl.refl _⟩
  trans _ _ _ h h' := {
    wrPrt := h'.wrPrt.trans h.wrPrt
    vtCnv := h'.vtCnv.trans h.vtCnv
    sdFat := h'.sdFat.trans h.sdFat
    eeprom := h'.eeprom.trans h.eeprom
    geometry := h'.geometry.trans h.geometry
    dirCluster := h'.dirCluster.trans h.dirCluster
    dirOffset := h'.dirOffset.trans h.dirOffset
    fileCluster := h'.fileCluster.trans h.fileCluster
    fileSize := h'.fileSize.trans h.fileSize
    console := IsTrans.trans _ _ _ h.console h'.console }

instance : MayPrint Bounded where
  said s text := { (Std.Refl.refl s : Bounded s s) with console := said_onward s.console text }

instance : MayHear Bounded where
  heard s _ h := { (Std.Refl.refl s : Bounded s s) with console := h }

instance : MayPoke Bounded := ⟨fun s _ => { (Std.Refl.refl s : Bounded s s) with }⟩

instance : MayLatch Bounded :=
  ⟨fun s _ _ _ _ _ _ _ => { (Std.Refl.refl s : Bounded s s) with }⟩

instance : Fat.MayRead (OfVolume Bounded) where
  fetch := by
    rintro v a s rfl
    exact { (Std.Refl.refl s : Bounded s s) with }
  record := by
    rintro v c o s rfl
    exact { (Std.Refl.refl s : Bounded s s) with }
  seek := by
    rintro v pos s rfl
    exact { (Std.Refl.refl s : Bounded s s) with }

instance : Fat.MayWrite (OfVolume Bounded) where
  write := by
    rintro v off data s rfl
    exact { (Std.Refl.refl s : Bounded s s) with }
  store := by
    rintro v a s rfl
    exact { (Std.Refl.refl s : Bounded s s) with }

theorem event_bounded (fuel : Nat) {e : Event} (h : e.ByGuest) :
    Prog.Keeps Bounded (e.run fuel) := by
  cases e with
  | out port val => exact out_keeps fuel port val
  | input port => exact .discard (input_keeps port)
  | poke addr data => exact (sramWrite_returns addr data).keeps
  | mount name | cd arg | ls | boot => exact h.elim

/-! ### The card, under write protection -/

/-- Write protection holds back the one command that reaches the card. -/
theorem command_image {fuel : Nat} {val : Byte} {s s' : State} (hprot : s.wrPrt ≠ 0)
    (h : command fuel val s = some ((), s')) : SameContents s s' := by
  rw [command, Prog.get_bind_run, if_neg fun hw : val = 1 ∧ s.wrPrt = 0 => hprot hw.2] at h
  have hkeeps : Prog.Keeps SameContents (do
      diskRead fuel s.blk
      if val = 0 then receive s.off s.dma else setDiskErr 7 : MachineM Unit) :=
    .bind (diskRead_keeps fuel s.blk) fun _ =>
      .ite (receive_keeps _ _) (setDiskErr_returns 7).keeps
  by_cases hdrive : s.drive = 0 ∨ s.drive = 8
  · rw [if_pos hdrive] at h
    exact hkeeps s _ s' h
  · rw [if_neg hdrive] at h
    cases h
    exact rfl

theorem event_image {fuel : Nat} {e : Event} (he : e.ByGuest) {s s' : State}
    (hprot : s.wrPrt ≠ 0) (h : e.run fuel s = some ((), s')) : SameContents s s' := by
  cases e with
  | out port val =>
      by_cases hport : port = 13
      · subst hport
        exact command_image hprot h
      · exact out_keeps_of_ne fuel hport val s _ s' h
  | input port =>
      obtain ⟨a, ha⟩ := Prog.discard_eq_some.mp h
      exact input_keeps port s a s' ha
  | poke addr data =>
      cases h
      exact rfl
  | mount name | cd arg | ls | boot => exact he.elim

/-- What holds of the machine, whatever the guest does to it. -/
theorem events_bounded (fuel : Nat) {es : List Event} (hes : ∀ e ∈ es, Event.ByGuest e) :
    ∀ {s s' : State}, Prog.runAll (Event.run fuel) es s = some ((), s') →
      Bounded s s' ∧ (s.wrPrt ≠ 0 → SameContents s s') := by
  induction es with
  | nil =>
      rintro s s' h
      cases h
      exact ⟨Std.Refl.refl s, fun _ => rfl⟩
  | cons e es ih =>
      rintro s s' h
      obtain ⟨_, t, hfirst, hrest⟩ := Prog.bind_eq_some.mp h
      rw [List.forall_mem_cons] at hes
      have hst := event_bounded fuel hes.1 s _ t hfirst
      obtain ⟨hts, hkept⟩ := ih hes.2 hrest
      refine ⟨IsTrans.trans _ _ _ hst hts, fun hprot => ?_⟩
      have himage := event_image hes.1 hprot hfirst
      exact (hkept (hst.wrPrt ▸ hprot)).trans himage

/-- No program changes the settings of the monitor, the EEPROM or what is
mounted, on either core; and none changes the card while it is protected. -/
theorem guest_bounded {fuel : Nat} (p : Processor (ports fuel) σ) (n : Nat) {c : σ} {s₀ s : State}
    (hsound : p.sound c) (h₀ : joined (p.outside c) = some s₀)
    (h : joined (p.outside (run p.step n c).1) = some s) :
    Bounded s₀ s ∧ (s₀.wrPrt ≠ 0 → s.card.image = s₀.card.image) := by
  obtain ⟨t, es, ht, hes, hrun⟩ := guest_events p n hsound h
  obtain rfl : s₀ = t := Option.some.inj (h₀.symm.trans ht)
  exact events_bounded fuel hes hrun

/-- `MVI A,1` and `OUT 13`, over and over. -/
def writer : Mem := fun addr =>
  match addr.toNat % 4 with
  | 0 => 0x3e
  | 1 => 0x01
  | 2 => 0xd3
  | _ => 0x0d

/-- A protected card, and a guest that writes to it. -/
def writing : Cpu8080.Work (Option State) where
  a := 0
  f := 0
  b := 0
  c := 0
  d := 0
  e := 0
  h := 0
  l := 0
  op := 0
  pc := 0
  sp := 0xffff
  mem := writer
  dev := some { State.initial (Fat.blankCard []) with wrPrt := 1, track := 2, sect := 1 }
  calls := []

theorem guest_bounded_writing : ∃ s,
    joined ((Cpu8080.processor (ports 1)).outside
      (run (Cpu8080.processor (ports 1)).step 2 writing).1) = some s
    ∧ s.diskErr = 7 ∧ s.card.image = (Fat.blankCard []).image := by
  refine ⟨_, rfl, rfl, ?_⟩
  exact (guest_bounded (Cpu8080.processor (ports 1)) 2 (c := writing) trivial rfl rfl).2 (by decide)

end Machine

end CpMega88
