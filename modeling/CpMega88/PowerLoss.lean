import CpMega88.Commands
import CpMega88.Lib.Reach
import CpMega88.ResetMount

/-!
# The EEPROM when power is lost

What is left of the EEPROM when boots, mounts and settings are cut after
any of their calls of `eeprom_write`. A step is a run of `machine_boot` or
of a monitor command; what it leaves is read off the trail of that run
(`cut`), so it is the order of the calls in the code that decides.

Wherever power is lost, the next `machine_boot` initialises the EEPROM,
ignores the name in it, or reads one that a mount has opened and recorded
completely (`crash_consistent`).
-/

namespace CpMega88

open Bytes CellWrites

namespace Eeprom

variable {calls : Calls} {e e' : Rom}

/-! ## Runs cut short -/

/-- The cells after each call of `eeprom_write` between two states. -/
def wrote (e e' : Rom) : List (Word → Byte) := e'.trail.drop e.trail.length

/-- The cells when power is lost after `k` of these calls; all of them
are made if there are no more. -/
def cut (k : Nat) (e e' : Rom) : Word → Byte := ((wrote e e').take k).getLastD e.cells

theorem Rom.Made.wrote_eq (h : e.Made calls e') : wrote e e' = states calls e.cells := by
  rw [wrote, h.trail, List.drop_left]

theorem Rom.Made.wrote_length (h : e.Made calls e') : (wrote e e').length = calls.length := by
  rw [h.wrote_eq, states_length]

/-- The calls that power lasts for have been made, and no other ones. -/
theorem Rom.Made.cut_eq (h : e.Made calls e') (k : Nat) :
    cut k e e' = apply (calls.take k) e.cells := by
  rw [cut, h.wrote_eq, cut_states]

theorem Rom.Made.cut_whole (h : e.Made calls e') : cut (wrote e e').length e e' = e'.cells := by
  rw [h.cut_eq, h.wrote_length, List.take_length, h.cells]

end Eeprom

namespace Machine

open Eeprom (Rom Calls stringCalls wrote cut)

/-! ## Boots, mounts and settings -/

/-- The EEPROM can be used, and has these cells. -/
def State.Holds (s : State) (cells : Word → Byte) : Prop :=
  s.eeprom.Works ∧ s.eeprom.cells = cells

/-- The cells, whether the monitor is up, and the names that `m` has
recorded to the end. -/
structure Nvm where
  cells : Word → Byte
  up : Bool
  recorded : List (List Byte)

/-- Power lasts for the first `k` of the calls between two states. -/
def Nvm.after (n : Nvm) (k : Nat) (done : Option (List Byte)) (e e' : Rom) : Nvm where
  cells := cut k e e'
  up := decide ((wrote e e').length ≤ k)
  recorded := if (wrote e e').length ≤ k then done.toList ++ n.recorded else n.recorded

/-- Each run begins in any state that has the cells; the file is mounted
where `mount` leaves `sd_fat` at 1. -/
inductive Step : Nvm → Nvm → Prop
  | boot {n : Nvm} {fuel : Nat} {s s' : State} {b : Bool} (k : Nat) :
      s.Holds n.cells → startup fuel s = some (b, s') →
      Step n (n.after k none s.eeprom s'.eeprom)
  /-- The command `m`. -/
  | mount {n : Nvm} {fuel : Nat} {name : List Byte} {s s' : State} (k : Nat) :
      n.up = true → s.Holds n.cells → mount fuel name s = some ((), s') →
      Step n (n.after k (if s'.sdFat = 1 then some (cstr name) else none) s.eeprom s'.eeprom)
  /-- The command `a`. -/
  | auto {n : Nvm} {arg : List Byte} {s s' : State} (k : Nat) :
      n.up = true → s.Holds n.cells → autoBoot arg s = some ((), s') →
      Step n (n.after k none s.eeprom s'.eeprom)
  /-- Power is lost with no call on the way, in a run that does not come
  back, say. -/
  | off {n : Nvm} : Step n { n with up := false }

instance : MayPoke Browsed := ⟨fun _ _ => ⟨rfl, rfl, rfl⟩⟩

/-- The whole of `machine_boot` is such a step: to boot the system has
nothing to do with the EEPROM. -/
theorem step_machineBoot {n : Nvm} {fuel : Nat} {s s' : State} (k : Nat) (hs : s.Holds n.cells)
    (hrun : machineBoot fuel s = some ((), s')) : Step n (n.after k none s.eeprom s'.eeprom) := by
  obtain ⟨b, t, hstart, hrest⟩ := Prog.bind_eq_some.mp hrun
  have hboots : Prog.Keeps Browsed (if b then boot fuel else pure ()) :=
    .ite (boot_keeps fuel) (.pure ())
  rw [(hboots t () s' hrest).2.1]
  exact .boot k hs hstart

/-- Never started: the EEPROM holds anything that is not initialised. -/
def Nvm.Blank (n : Nvm) : Prop := n.cells 0 ≠ 0x88 ∧ n.up = false ∧ n.recorded = []

/-! ## What a cut leaves -/

/-- Cut anywhere, the initialisation leaves a clear mark, or no name. -/
theorem init_cut {cells : Word → Byte} (h : cells 0 ≠ 0x88) (k : Nat) :
    apply (initCalls.take k) cells 0 ≠ 0x88 ∨ apply (initCalls.take k) cells 16 ≠ 0x88 := by
  obtain ⟨zeros, hzeros⟩ : ∃ zeros, zeros = (List.range 256).map
      fun i => ((BitVec.ofNat 16 i : Word), (0 : Byte)) := ⟨_, rfl⟩
  have hall : ∀ w ∈ zeros, w.2 = 0 := by
    rw [hzeros]
    intro w hw
    obtain ⟨i, -, rfl⟩ := List.mem_map.mp hw
    rfl
  rw [initCalls, ← hzeros]
  rcases Nat.lt_or_ge k (zeros ++ [((0 : Word), (0x88 : Byte))]).length with hk | hk
  · left
    rw [List.length_append, List.length_singleton] at hk
    rw [List.take_append_of_le_length (by omega)]
    rcases apply_only (a := (0 : Word)) (fun w hw _ => hall w (List.mem_of_mem_take hw)) cells with
      hkept | hzero
    · rw [hkept]
      exact h
    · rw [hzero]
      decide
  · right
    have hmem : ∃ w ∈ zeros, w.1 = (16 : Word) := by
      rw [hzeros]
      exact ⟨_, List.mem_map.mpr ⟨16, List.mem_range.mpr (by decide), rfl⟩, rfl⟩
    have hzero := apply_written (a := (16 : Word)) (fun w hw _ => hall w hw) hmem cells
    have hwhole : apply ((zeros ++ [((0 : Word), (0x88 : Byte))]).take k) cells 16 = 0 := by
      rw [List.take_of_length_le hk, apply_append, apply_cons, apply_nil,
        Function.update_of_ne (by decide), hzero]
    rw [hwhole]
    decide

/-- Cut anywhere, the calls of `mount` leave the cells as they were, no
name, or the whole of their own. -/
theorem mount_cut {name : List Byte} (h : Opens name) (k : Nat) (cells : Word → Byte) :
    apply ((mountCalls name).take k) cells = cells
      ∨ apply ((mountCalls name).take k) cells 16 ≠ 0x88
      ∨ (mountCalls name).length ≤ k
        ∧ storedName (apply ((mountCalls name).take k) cells) 13 17 = some (cstr name) := by
  have hlen := h.length_le
  have hbody : ∀ w ∈ stringCalls 17 name, w.1 ≠ (16 : Word) := by
    rintro w hw h16
    have hle : (17 : Word).toNat ≤ w.1.toNat := stringCalls_range (by simp; omega) hw
    rw [h16] at hle
    exact absurd hle (by decide)
  have hcut : apply ((mountCalls name).take k) cells = cells
      ∨ apply ((mountCalls name).take k) cells 16 = 0 ∨ (mountCalls name).length ≤ k :=
    guarded_cut hbody k cells
  rcases hcut with hsame | hoff | hall
  · exact .inl hsame
  · refine .inr (.inl ?_)
    rw [hoff]
    decide
  · refine .inr (.inr ⟨hall, ?_⟩)
    rw [List.take_of_length_le hall]
    exact mountCalls_stored h cells

/-! ## The invariant -/

/-- The next `machine_boot` initialises the EEPROM, or takes no name from
it, or a name that a mount has opened and recorded to the end. -/
def Nvm.Recoverable (n : Nvm) : Prop :=
  n.cells 0 ≠ 0x88 ∨ n.cells 16 ≠ 0x88
    ∨ ∃ name ∈ n.recorded, storedName n.cells 13 17 = some name

structure Nvm.Inv (n : Nvm) : Prop where
  opened : ∀ name ∈ n.recorded, name.length ≤ 12 ∧ Opens name
  safe : n.Recoverable

theorem recoverable_mono {n n' : Nvm} (hcells : n'.cells = n.cells)
    (hrec : ∀ name ∈ n.recorded, name ∈ n'.recorded) (h : n.Recoverable) : n'.Recoverable := by
  unfold Nvm.Recoverable
  rw [hcells]
  rcases h with h0 | h16 | ⟨name, hname, hstored⟩
  · exact .inl h0
  · exact .inr (.inl h16)
  · exact .inr (.inr ⟨name, hrec name hname, hstored⟩)

section After

variable {n : Nvm} {e e' : Rom} {k : Nat}

/-- If power lasts, the end of the run is where the next one begins. -/
theorem after_whole {calls : Calls} (h : e.Made calls e') (done : Option (List Byte)) :
    n.after (wrote e e').length done e e' = ⟨e'.cells, true, done.toList ++ n.recorded⟩ := by
  rw [Nvm.after, h.cut_whole, decide_eq_true le_rfl, if_pos le_rfl]

theorem mem_recorded {done : Option (List Byte)} {name : List Byte} (h : name ∈ n.recorded) :
    name ∈ (n.after k done e e').recorded := by
  unfold Nvm.after
  dsimp only
  split_ifs
  · exact List.mem_append_right _ h
  · exact h

theorem recorded_none : (n.after k none e e').recorded = n.recorded := by
  unfold Nvm.after
  dsimp only
  split_ifs <;> rfl

/-- With nothing recorded only the cells are at stake. -/
theorem after_inv (h : n.Inv) (hsafe : (n.after k none e e').Recoverable) :
    (n.after k none e e').Inv := by
  refine ⟨?_, hsafe⟩
  rw [recorded_none]
  exact h.opened

theorem after_nothing (h : n.Inv) (hcells : e.cells = n.cells) (hmade : e.Made [] e') :
    (n.after k none e e').Inv := by
  refine after_inv h (recoverable_mono ?_ (fun _ => mem_recorded) h.safe)
  show cut k e e' = n.cells
  rw [hmade.cut_eq, List.take_nil, apply_nil, hcells]

end After

theorem Opens.cstr {name : List Byte} (h : Opens name) : Opens (cstr name) := by
  obtain ⟨v, hv⟩ := h
  refine ⟨v, ?_⟩
  rw [strdcmp_nul_iff] at hv ⊢
  rw [cstr_cstr, hv]

theorem nvm_boot_inv {n : Nvm} (h : n.Inv) {fuel : Nat} {s s' : State} {b : Bool} (k : Nat)
    (hs : s.Holds n.cells) (hrun : startup fuel s = some (b, s')) :
    (n.after k none s.eeprom s'.eeprom).Inv := by
  obtain ⟨hworks, hcells⟩ := hs
  obtain ⟨u, ⟨-, hrom⟩, hconf⟩ := startup_sameStore hrun
  obtain ⟨done, calls, hcalls, hmade⟩ := configure_calls (hrom.symm ▸ hworks) hconf
  rw [hrom] at hcalls hmade
  have hcut : (n.after k none s.eeprom s'.eeprom).cells = apply (calls.take k) n.cells :=
    (hmade.cut_eq k).trans (congrArg _ hcells)
  rw [hcells] at hcalls
  cases hcalls with
  | init h0 =>
      refine after_inv h ?_
      have hmark := init_cut h0 k
      rw [← hcut] at hmark
      rcases hmark with hclear | hnone
      · exact .inl hclear
      · exact .inr (.inl hnone)
  | plain h0 h16 => exact after_nothing h hcells hmade
  | @named name _ _ h0 h16 hstored hmount =>
      cases hmount with
      | missing => exact after_nothing h hcells hmade
      | found hopens =>
          refine after_inv h ?_
          rcases mount_cut hopens k n.cells with hsame | hclear | ⟨-, hwhole⟩
          · exact recoverable_mono (hcut.trans hsame) (fun _ => mem_recorded) h.safe
          · exact .inr (.inl (hcut ▸ hclear))
          · -- the name found in the EEPROM is one on record
            rcases h.safe with h0' | h16' | ⟨name', hname, hstored'⟩
            · exact absurd h0 h0'
            · exact absurd h16 h16'
            · obtain rfl : name = name' := Option.some.inj (hstored.symm.trans hstored')
              rw [storedName_cstr hstored, ← hcut] at hwhole
              exact .inr (.inr ⟨name, mem_recorded hname, hwhole⟩)

theorem nvm_mount_inv {n : Nvm} (h : n.Inv) {fuel : Nat} {name : List Byte} {s s' : State}
    (k : Nat) (hs : s.Holds n.cells) (hrun : mount fuel name s = some ((), s')) :
    (n.after k (if s'.sdFat = 1 then some (cstr name) else none) s.eeprom s'.eeprom).Inv := by
  obtain ⟨hworks, hcells⟩ := hs
  cases mount_ends hrun with
  | missing hmode hrom =>
      rw [hmode, if_neg (by decide), hrom]
      exact after_nothing h hcells hworks.made_nil
  | found hmode hopens hrom =>
      rw [if_pos hmode, hrom]
      have hmade := hworks.perform (mountCalls name)
      obtain ⟨n', hn'⟩ : ∃ n', n' = n.after k (some (cstr name)) s.eeprom
        (Eeprom.perform (mountCalls name) s.eeprom) := ⟨_, rfl⟩
      have hcut : n'.cells = apply ((mountCalls name).take k) n.cells := by
        rw [hn', ← hcells]
        exact hmade.cut_eq k
      have hkept : ∀ x ∈ n.recorded, x ∈ n'.recorded := fun x hx => hn' ▸ mem_recorded hx
      rw [← hn']
      refine ⟨fun x hx => ?_, ?_⟩
      · rw [hn'] at hx
        unfold Nvm.after at hx
        dsimp only at hx
        split_ifs at hx
        · rw [Option.toList_some, List.singleton_append, List.mem_cons] at hx
          rcases hx with rfl | hx
          · exact ⟨hopens.length_le, hopens.cstr⟩
          · exact h.opened x hx
        · exact h.opened x hx
      · rcases mount_cut hopens k n.cells with hsame | hclear | ⟨hall, hwhole⟩
        · exact recoverable_mono (hcut.trans hsame) hkept h.safe
        · exact .inr (.inl (hcut ▸ hclear))
        · have hrec : n'.recorded = [cstr name] ++ n.recorded := by
            rw [hn']
            exact if_pos (hmade.wrote_length.le.trans hall)
          rw [← hcut] at hwhole
          refine .inr (.inr ⟨cstr name, ?_, hwhole⟩)
          rw [hrec]
          exact List.mem_append_left _ List.mem_cons_self

/-- `a` writes one cell, below the name. -/
theorem autoBoot_made {arg : List Byte} {s s' : State} (hs : s.eeprom.Works)
    (h : autoBoot arg s = some ((), s')) : ∃ v, s.eeprom.Made [(8, v)] s'.eeprom := by
  rw [autoBoot, Prog.ite_run] at h
  split_ifs at h <;> rw [Prog.bind_of_run (putsln_run _ _)] at h <;> cases h
  · exact ⟨0x88, hs.write 8 0x88⟩
  · exact ⟨0, hs.write 8 0⟩

theorem nvm_auto_inv {n : Nvm} (h : n.Inv) {arg : List Byte} {s s' : State} (k : Nat)
    (hs : s.Holds n.cells) (hrun : autoBoot arg s = some ((), s')) :
    (n.after k none s.eeprom s'.eeprom).Inv := by
  obtain ⟨hworks, hcells⟩ := hs
  obtain ⟨v, hmade⟩ := autoBoot_made hworks hrun
  have hcut : cut k s.eeprom s'.eeprom = apply ([((8 : Word), v)].take k) n.cells :=
    (hmade.cut_eq k).trans (congrArg _ hcells)
  refine after_inv h ?_
  cases k with
  | zero => exact recoverable_mono hcut (fun _ => mem_recorded) h.safe
  | succ k =>
      have hset : (n.after (k + 1) none s.eeprom s'.eeprom).cells
          = Function.update n.cells 8 v := by
        rw [Nvm.after, hcut, List.take_succ_cons, List.take_nil, apply_cons, apply_nil]
      have hcell (a : Word) (ha : a ≠ 8) :
          (n.after (k + 1) none s.eeprom s'.eeprom).cells a = n.cells a := by
        rw [hset, Function.update_of_ne ha]
      rcases h.safe with h0 | h16 | ⟨name, hname, hstored⟩
      · exact .inl ((hcell 0 (by decide)).symm ▸ h0)
      · exact .inr (.inl ((hcell 16 (by decide)).symm ▸ h16))
      · refine .inr (.inr ⟨name, mem_recorded hname, ?_⟩)
        rw [hset, storedName_update _ (by decide), hstored]

theorem nvm_step_inv {n n' : Nvm} (h : n.Inv) (hstep : Step n n') : n'.Inv := by
  cases hstep with
  | boot k hs hrun => exact nvm_boot_inv h k hs hrun
  | mount k hup hs hrun => exact nvm_mount_inv h k hs hrun
  | auto k hup hs hrun => exact nvm_auto_inv h k hs hrun
  | off => exact ⟨h.opened, recoverable_mono rfl (fun _ hname => hname) h.safe⟩

/-- Whatever has been booted and mounted, and wherever power was lost,
the next `machine_boot` initialises the EEPROM, ignores the name in it, or
reads one, of at most 12 characters, that a mount has opened and recorded
completely. -/
theorem crash_consistent {n : Nvm} (h : Reachable Nvm.Blank Step n) :
    n.cells 0 ≠ 0x88 ∨ n.cells 16 ≠ 0x88
      ∨ ∃ name ∈ n.recorded, name.length ≤ 12 ∧ Opens name
        ∧ ∀ s : State, s.Holds n.cells → ∃ t, readString 13 17 s = some (name, t) := by
  have hinv : n.Inv := by
    refine h.invariant Nvm.Inv (fun s hs => ?_) fun s t hs hst => nvm_step_inv hs hst
    obtain ⟨h0, -, hrec⟩ := hs
    refine ⟨?_, .inl h0⟩
    rw [hrec]
    intro name hname
    cases hname
  rcases hinv.safe with h0 | h16 | ⟨name, hname, hstored⟩
  · exact .inl h0
  · exact .inr (.inl h16)
  · obtain ⟨hlen, hopens⟩ := hinv.opened name hname
    refine .inr (.inr ⟨name, hname, hlen, hopens, fun s hs => ?_⟩)
    obtain ⟨e, -, hread⟩ := readString_run 13 17 hs.1
    rw [hs.2, hstored] at hread
    exact ⟨_, hread⟩

/-- A new EEPROM is initialised and a mount of `A` recorded: that is the
name read next. -/
theorem crash_consistent_mounted : ∃ s₁ s t, startup 129 fresh = some (false, s₁)
    ∧ mount 129 (ascii "A") s₁ = some ((), s) ∧ readString 13 17 s = some (ascii "A", t) := by
  obtain ⟨s₁, hboot, hvolume⟩ := fresh_startup
  obtain ⟨s, hmount, hmode, -⟩ := mount_a hvolume
  obtain ⟨u, ⟨-, hrom⟩, hconf⟩ := startup_sameStore hboot
  have hworks : u.eeprom.Works := hrom.symm ▸ fresh_works
  obtain ⟨done, calls, -, hinit⟩ := configure_calls hworks hconf
  rw [hrom] at hinit
  have hmade : s₁.eeprom.Made (mountCalls (ascii "A")) s.eeprom := by
    cases mount_ends hmount with
    | missing hmode' _ => exact absurd (hmode.symm.trans hmode') (by decide)
    | found _ _ hend =>
        rw [hend]
        exact hinit.works.perform _
  have hstart : Reachable Nvm.Blank Step ⟨fresh.eeprom.cells, false, []⟩ :=
    .start ⟨by decide, rfl, rfl⟩
  have hup : Reachable Nvm.Blank Step ⟨s₁.eeprom.cells, true, []⟩ := by
    have h := hstart.step (.boot (wrote fresh.eeprom s₁.eeprom).length ⟨fresh_works, rfl⟩ hboot)
    rw [after_whole hinit] at h
    exact h
  have hdone : Reachable Nvm.Blank Step ⟨s.eeprom.cells, true, [cstr (ascii "A")]⟩ := by
    have h := hup.step (.mount (wrote s₁.eeprom s.eeprom).length rfl ⟨hinit.works, rfl⟩ hmount)
    rw [if_pos hmode, after_whole hmade] at h
    exact h
  have hrec := mount_recorded (configure_recorded hworks hconf) hmount
  obtain ⟨h16, -⟩ := hrec.named _ rfl (by rw [hmode]; decide)
  rcases crash_consistent hdone with hclear | hnone | ⟨name, hname, -, -, hread⟩
  · exact absurd hrec.marked hclear
  · exact absurd h16 hnone
  · obtain ⟨t, ht⟩ := hread s ⟨hmade.works, rfl⟩
    rw [List.mem_singleton.mp hname] at ht
    exact ⟨s₁, s, t, hboot, hmount, ht⟩

end Machine

end CpMega88
