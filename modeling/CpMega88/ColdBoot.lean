import CpMega88.BootTests
import CpMega88.Cpu8080Refine

/-!
# From the system tracks to the first instruction

`boot` with the C core, up to its first `cpu_8080_step`: the registers are
cleared, thirteen blocks of the card go to E380h and on, and page zero is
set up. Without a mounted file the blocks are the first ones of the image.

`boot_run` is the machine's side, for a card from which the blocks can be
fetched one after the other; `bootCpu_cold` says what the guest finds, and
`step_cold` that it goes on at FA00h.
-/

namespace CpMega88

open Bytes Sdcard

namespace Machine

/-! ## The system tracks -/

/-- `i << 9`. -/
def systemBlock (i : Nat) : ULong := BitVec.ofNat 64 i <<< 9

theorem toNat_systemBlock {i : Nat} (hi : i < 13) : (systemBlock i).toNat = i * 512 := by
  rw [systemBlock, BitVec.toNat_shiftLeft, BitVec.toNat_ofNat, Nat.shiftLeft_eq]
  omega

/-- The card after the first `n` fetches of `boot`. -/
def afterFetches (card : Card) : Nat → Card
  | 0 => card
  | n + 1 => (Sdcard.fetch (systemBlock n) (afterFetches card n)).2

/-- Each of the thirteen fetches succeeds. -/
def SystemRead (card : Card) : Prop :=
  ∀ i < 13, (Sdcard.fetch (systemBlock i) (afterFetches card i)).1 = 0

theorem afterFetches_moved (card : Card) (n : Nat) : Moved card (afterFetches card n) := by
  induction n with
  | zero => exact .refl card
  | succ n ih => exact ih.trans (fetch_moved _ _)

/-- The buffer after one of the fetches. -/
theorem afterFetches_buffer {card : Card} (h : SystemRead card) {i j : Nat} (hi : i < 13)
    (hj : j < 512) : (afterFetches card (i + 1)).buffer j = card.image.byte (i * 512 + j) := by
  have hok : FetchOk (afterFetches card i) (systemBlock i) := (fetch_iff _ _).mp (h i hi)
  rw [afterFetches, fetch_ok hok, loaded_buffer _ _ hj, Image.block,
    (afterFetches_moved card i).image, toNat_systemBlock hi]

/-- A card that works, and has the blocks, is read. -/
theorem systemRead_of_quiet {card : Card} (hfp : card.fp ≠ none) (hquiet : card.faults = [])
    (hlen : 6656 ≤ card.image.len) : SystemRead card := by
  have hok {i : Nat} (hi : i < 13) (hquiet : (afterFetches card i).faults = []) :
      FetchOk (afterFetches card i) (systemBlock i) := by
    have haddr := toNat_systemBlock hi
    have hmoved := afterFetches_moved card i
    have hholds : (afterFetches card i).image.Holds (systemBlock i) := by
      rw [hmoved.image]
      refine ⟨(aligned_iff _).mpr ?_, ?_, ?_⟩ <;> omega
    exact hholds.fetchOk (hmoved.fp ▸ hfp) (fault_of_quiet hquiet)
  have hfaults {n : Nat} (hn : n ≤ 13) : (afterFetches card n).faults = [] := by
    induction n with
    | zero => exact hquiet
    | succ n ih =>
        have hprev := ih (Nat.le_of_succ_le hn)
        rw [afterFetches, fetch_ok (hok hn hprev)]
        exact tail_of_quiet hprev
  intro i hi
  exact (fetch_iff _ _).mpr (hok hi (hfaults hi.le))

/-- The state after the first `n` blocks. -/
def State.tracks (s : State) (n : Nat) : State :=
  { s.withCard (afterFetches s.card n) with
    sram := blit s.sram 0xe380 s.card.image.byte (n * 512) }

theorem bootBlock_run (fuel : Nat) {s : State} (hraw : s.sdFat = 0) (h : SystemRead s.card)
    {i : Nat} (hi : i < 13) : bootBlock fuel i (s.tracks i) = some ((), s.tracks (i + 1)) := by
  have hread : diskRead fuel (BitVec.ofNat 64 i <<< 9) (s.tracks i) = _ :=
    @diskRead_raw (s.tracks i) hraw fuel (systemBlock i)
  have hbuffer : ∀ j < 512, (afterFetches s.card (i + 1)).buffer (BitVec.ofNat 16 j).toNat
      = s.card.image.byte (i * 512 + j) := by
    intro j hj
    have hnat : (BitVec.ofNat 16 j).toNat = j := Nat.mod_eq_of_lt (by omega)
    rw [hnat, afterFetches_buffer h hi hj]
  have hram : blit (s.tracks i).sram (0xe380 + BitVec.ofNat 16 (i * 512))
      (fun j => (afterFetches s.card (i + 1)).buffer (BitVec.ofNat 16 j).toNat) 512
      = blit s.sram 0xe380 s.card.image.byte ((i + 1) * 512) := by
    rw [blit_congr hbuffer, Nat.succ_mul]
    exact blit_blit _ _ _ (by omega)
  rw [bootBlock, Prog.bind_of_run hread, copy_run _ _ (by decide)]
  exact congrArg (fun sram => some ((), { s.withCard (afterFetches s.card (i + 1)) with
    sram := sram })) hram

/-! ## Page zero -/

/-- `JMP FA00h` and, at 5, `JMP EC06h`. -/
def pageZero : Nat → Byte
  | 0 => 0xc3
  | 2 => 0xfa
  | 5 => 0xc3
  | 6 => 0x06
  | 7 => 0xec
  | _ => 0

/-- Page zero filled with the bytes of `g`. -/
def State.paged (s : State) (g : Nat → Byte) : State := { s with sram := blit s.sram 0 g 0x100 }

theorem zero_add_word (a : Word) : 0 + a = a := BitVec.zero_add a

theorem clear_run (s : State) :
    Prog.upTo 0x100 (fun i => sramWrite (BitVec.ofNat 16 i) 0) s
      = some ((), s.paged fun _ => 0) := by
  refine fill_run 0 _ s (by decide) fun i _ sram => ?_
  rw [zero_add_word]
  rfl

theorem page_write (s : State) (g : Nat → Byte) (v : Byte) {a : Word} {i : Nat}
    (ha : a = BitVec.ofNat 16 i) (hi : i < 0x100) :
    sramWrite a v (s.paged g) = some ((), s.paged (Function.update g i v)) := by
  have hupdate := update_blit s.sram 0 g hi (by decide) v
  rw [zero_add_word, ← ha] at hupdate
  rw [sramWrite, Prog.modify_run, State.paged, State.paged, ← hupdate]

theorem vectors_run (s : State) : (do
      sramWrite 0x0000 0xc3
      sramWrite 0x0001 0x00
      sramWrite 0x0002 0xfa
      sramWrite 0x0005 0xc3
      sramWrite 0x0006 0x06
      sramWrite 0x0007 (0x3c + 0xb0) : MachineM Unit) (s.paged fun _ => 0)
    = some ((), s.paged pageZero) := by
  rw [Prog.bind_of_run (page_write s _ 0xc3 (a := 0x0000) (i := 0) rfl (by decide)),
    Prog.bind_of_run (page_write s _ 0x00 (a := 0x0001) (i := 1) rfl (by decide)),
    Prog.bind_of_run (page_write s _ 0xfa (a := 0x0002) (i := 2) rfl (by decide)),
    Prog.bind_of_run (page_write s _ 0xc3 (a := 0x0005) (i := 5) rfl (by decide)),
    Prog.bind_of_run (page_write s _ 0x06 (a := 0x0006) (i := 6) rfl (by decide)),
    page_write s _ (0x3c + 0xb0) (a := 0x0007) (i := 7) rfl (by decide)]
  refine congrArg (fun g => some ((), s.paged g)) (funext fun i => ?_)
  match i with
  | 0 | 1 | 2 | 3 | 4 | 5 | 6 | 7 => rfl
  | i + 8 => simp [pageZero]

/-- The state in which `boot` has set up the guest. -/
def State.booted (s : State) : State := (s.tracks 13).paged pageZero

theorem boot_run (fuel : Nat) {s : State} (hraw : s.sdFat = 0) (h : SystemRead s.card) :
    boot fuel s = some ((), s.booted) := by
  have hload : Prog.upTo 13 (bootBlock fuel) (s.tracks 0) = some ((), s.tracks 13) :=
    Prog.upTo_eq fun i hi => bootBlock_run fuel hraw h hi
  have hzero : s.tracks 0 = s := by
    rw [State.tracks, Nat.zero_mul, blit_zero]
    rfl
  rw [hzero] at hload
  rw [boot, Prog.bind_of_run hload, Prog.bind_of_run (clear_run _)]
  exact vectors_run (s.tracks 13)

theorem booted_sram (s : State) :
    s.booted.sram = blit (blit s.sram 0xe380 s.card.image.byte 6656) 0 pageZero 0x100 := rfl

section Booted

variable (s : State)

theorem booted_page {i : Nat} (hi : i < 0x100) :
    s.booted.sram (BitVec.ofNat 16 i) = pageZero i := by
  rw [booted_sram, ← zero_add_word (BitVec.ofNat 16 i)]
  exact blit_in _ _ _ hi (by decide)

theorem booted_above {a : Word} (ha : 0x100 ≤ a.toNat) :
    s.booted.sram a = blit s.sram 0xe380 s.card.image.byte 6656 a := by
  rw [booted_sram]
  refine blit_out fun i hi h => ?_
  rw [h, zero_add_word, BitVec.toNat_ofNat] at ha
  omega

theorem booted_system {k : Nat} (hk : k < 6656) :
    s.booted.sram (0xe380 + BitVec.ofNat 16 k) = s.card.image.byte k := by
  have hnat : ((0xe380 : Word) + BitVec.ofNat 16 k).toNat = 0xe380 + k :=
    toNat_add_ofNat rfl (by omega)
  rw [booted_above s (by omega)]
  exact blit_in _ _ _ hk (by decide)

end Booted

/-! ## The core -/

/-- `load_8` and `store_8` go to the machine's RAM. -/
def onMachine {α : Type} (x : MachineM α) : Prog (Cpu8080.Work State) α := fun w =>
  (x { w.dev with sram := w.mem }).map fun r => (r.1, { w with mem := r.2.sram, dev := r.2 })

/-- `boot` with the C core, up to the first `cpu_8080_step`. -/
def bootCpu (fuel : Nat) : Prog (Cpu8080.Work State) Unit := do
  Prog.lift Cpu8080.reset
  onMachine (boot fuel)

/-- A `JMP target` lies at `addr`. -/
def JumpAt (mem : Mem) (addr target : Word) : Prop :=
  mem addr = 0xc3 ∧ word (mem (addr + 2)) (mem (addr + 1)) = target

/-- What the guest finds: the system tracks, the two jumps in page zero,
cleared registers, and everything else as it was. -/
structure ColdStart (w w' : Cpu8080.Work State) : Prop where
  system : ∀ k < 6656, w'.mem (0xe380 + BitVec.ofNat 16 k) = w.dev.card.image.byte k
  cold : JumpAt w'.mem 0x0000 0xfa00
  bdos : JumpAt w'.mem 0x0005 0xec06
  zero : ∀ a : Word, a.toNat < 0x100 → a.toNat ∉ [0, 1, 2, 5, 6, 7] → w'.mem a = 0
  ram : ∀ a : Word, 0x100 ≤ a.toNat → (∀ k < 6656, a ≠ 0xe380 + BitVec.ofNat 16 k) →
    w'.mem a = w.mem a
  registers : w'.a = 0 ∧ w'.f = 0 ∧ w'.b = 0 ∧ w'.c = 0 ∧ w'.d = 0 ∧ w'.e = 0 ∧ w'.h = 0
    ∧ w'.l = 0
  pc : w'.pc = 0
  sp : w'.sp = 0xffff
  image : w'.dev.card.image = w.dev.card.image

theorem booted_jump (s : State) {i : Nat} (hi : i + 2 < 0x100) (hop : pageZero i = 0xc3) :
    JumpAt s.booted.sram (BitVec.ofNat 16 i) (word (pageZero (i + 2)) (pageZero (i + 1))) := by
  refine ⟨(booted_page s (by omega)).trans hop, ?_⟩
  rw [← booted_page s hi, ← booted_page s (Nat.lt_of_succ_lt hi), BitVec.ofNat_add,
    BitVec.ofNat_add]
  rfl

theorem pageZero_zero {i : Nat} (hi : i ∉ [0, 1, 2, 5, 6, 7]) : pageZero i = 0 := by
  match i with
  | 0 | 1 | 2 | 5 | 6 | 7 => exact absurd (by decide) hi
  | 3 | 4 => rfl
  | i + 8 => simp [pageZero]

/-- With no file mounted `boot` loads the system tracks, for any card from
which they can be fetched. -/
theorem bootCpu_cold (fuel : Nat) {w : Cpu8080.Work State} (hraw : w.dev.sdFat = 0)
    (h : SystemRead w.dev.card) : ∃ w', bootCpu fuel w = some ((), w') ∧ ColdStart w w' := by
  let s : State := { w.dev with sram := w.mem }
  have hrun : boot fuel s = some ((), s.booted) := boot_run fuel hraw h
  refine ⟨{ (Cpu8080.reset w).2 with mem := s.booted.sram, dev := s.booted }, ?_, ?_⟩
  · show (boot fuel s).map _ = _
    rw [hrun]
    rfl
  · exact {
      system := fun k hk => booted_system s hk
      cold := booted_jump s (i := 0) (by decide) rfl
      bdos := booted_jump s (i := 5) (by decide) rfl
      zero := fun a ha hno => by
        have hpage := booted_page s ha
        rw [BitVec.ofNat_toNat, BitVec.setWidth_eq, pageZero_zero hno] at hpage
        exact hpage
      ram := fun a ha hno => (booted_above s ha).trans (blit_out hno)
      registers := ⟨rfl, rfl, rfl, rfl, rfl, rfl, rfl, rfl⟩
      pc := rfl
      sp := rfl
      image := (afterFetches_moved w.dev.card 13).image }

/-- The first step goes to FA00h, whatever hangs on the ports. -/
theorem step_cold {w w' : Cpu8080.Work State} (h : ColdStart w w') (ports : Ports State) :
    (Cpu8080.step ports w').1 = 0
      ∧ (Cpu8080.step ports w').2.arch = { w'.arch with pc := 0xfa00 } := by
  have hop : w'.mem w'.pc = 0xc3 := by
    rw [h.pc]
    exact h.cold.1
  have htarget : w'.arch.next.imm16 = 0xfa00 := by
    show word (w'.mem (w'.pc + 1 + 1)) (w'.mem (w'.pc + 1)) = _
    rw [h.pc]
    exact h.cold.2
  have hjump : Isa.step Isa.coreAux ports w'.arch = ({ w'.arch with pc := 0xfa00 }, false) := by
    rw [Isa.step, show w'.arch.imm = 0xc3 from hop, show Isa.decode 0xc3 = .jmp from by decide]
    show (Isa.jumpTo w'.arch.next w'.arch.next.imm16, false) = _
    rw [htarget]
    rfl
  have hdaa : Isa.decode (w'.mem w'.pc) ≠ .daa := by
    rw [hop]
    decide
  obtain ⟨harch, hcode⟩ := Cpu8080.step_refines ports w' hdaa
  rw [hjump] at harch hcode
  exact ⟨by_contra fun hne => Bool.noConfusion (hcode.mp hne), harch⟩

/-- The bytes 0, 1, 2, and so on around. -/
def countingCard : Card where
  image := ⟨6656, fun i => BitVec.ofNat 8 i⟩
  access := some true
  buffer := fun _ => 0
  curBlk := 0
  fp := some true
  faults := []

/-- A machine that was in use boots from that card, and goes on at FA00h. -/
theorem bootCpu_cold_counting : ∃ w w' : Cpu8080.Work State, w.mem 0x0003 = 0x55
    ∧ w.mem 0xe37f = 0x55 ∧ w.pc = 0x1234 ∧ bootCpu 0 w = some ((), w') ∧ w'.mem 0x0003 = 0
    ∧ w'.mem 0xe37f = 0x55 ∧ w'.mem 0xe381 = 1 ∧ w'.pc = 0
    ∧ ∀ ports, (Cpu8080.step ports w').2.pc = 0xfa00 := by
  let w : Cpu8080.Work State := {
    a := 1, f := 2, b := 3, c := 4, d := 5, e := 6, h := 7, l := 8, pc := 0x1234, sp := 0x5678
    op := 0x76, mem := fun _ => 0x55, dev := State.initial countingCard, calls := [] }
  have hread : SystemRead w.dev.card := systemRead_of_quiet (by decide) rfl le_rfl
  obtain ⟨w', hrun, hcold⟩ := bootCpu_cold 0 (w := w) rfl hread
  refine ⟨w, w', rfl, rfl, rfl, hrun, hcold.zero 3 (by decide) (by decide), ?_,
    hcold.system 1 (by decide), hcold.pc,
    fun ports => congrArg Isa.State.pc (step_cold hcold ports).2⟩
  refine hcold.ram 0xe37f (by decide) fun k hk h => ?_
  have hnat := congrArg BitVec.toNat h
  rw [toNat_add_ofNat (a := 0xe380) rfl (by omega)] at hnat
  exact absurd hnat (by simp; omega)

end Machine

end CpMega88
