import CpMega88.Boot
import CpMega88.Controller
import CpMega88.Footprint

/-!
# The tests `machine_boot` makes

`mem_chk` comes to its end whatever it finds, and changes RAM and console
only (`memChk_returns`). `sdc_chk` goes back over the bytes that differ,
so that its end is another matter (`CardTest`); what it and the other
parts do in any case is to leave the image and, up to `configure`, the
EEPROM alone (`SameStore`).
-/

namespace CpMega88

open Bytes Fat Sdcard Splice

namespace Machine

/-! ## Output and RAM -/

/-- Only the console differs. -/
def Prints (s s' : State) : Prop := ∃ console, s' = { s with console := console }

instance : IsPreorder State Prints where
  refl _ := ⟨_, rfl⟩
  trans _ _ _ h h' := by
    obtain ⟨c, rfl⟩ := h
    obtain ⟨c', rfl⟩ := h'
    exact ⟨c', rfl⟩

instance : MayPrint Prints := ⟨fun _ _ => ⟨_, rfl⟩⟩

/-- Only RAM and console differ. -/
def RamOnly (s s' : State) : Prop :=
  ∃ sram console, s' = { s with sram := sram, console := console }

instance : IsPreorder State RamOnly where
  refl _ := ⟨_, _, rfl⟩
  trans _ _ _ h h' := by
    obtain ⟨m, c, rfl⟩ := h
    obtain ⟨m', c', rfl⟩ := h'
    exact ⟨m', c', rfl⟩

instance : MayPrint RamOnly := ⟨fun _ _ => ⟨_, _, rfl⟩⟩

instance : MayPoke RamOnly := ⟨fun _ _ => ⟨_, _, rfl⟩⟩

/-! ## The memory test -/

section

variable {R : State → State → Prop} [IsPreorder State R] [MayPrint R] [MayPoke R]

omit [MayPrint R] in
theorem memProbe_returns (test : Nat) (addr : Word) :
    Prog.Returns R (MemTest.memProbe bus test addr) := by
  refine .ite ?_ (.bind (sramRead_returns _) fun _ => .pure _)
  refine .bind (sramWrite_returns _ _) fun _ => .bind (sramRead_returns _) fun _ => ?_
  refine .bind (sramWrite_returns _ _) fun _ => .bind (sramRead_returns _) fun _ => ?_
  exact .bind (sramWrite_returns _ _) fun _ => .bind (sramRead_returns _) fun _ => .pure _

theorem memPass_returns (test left : Nat) (addr : Word) :
    Prog.Returns R (MemTest.memPass bus test left addr) := by
  induction left generalizing addr with
  | zero => exact .pure true
  | succ left ih =>
      have hputs (text : List Byte) : Prog.Returns R (puts text) := puts_returns text
      have hhex (c : Byte) : Prog.Returns R (puthex c) := puthex_returns c
      have hnum : Prog.Returns R (putnumU16 addr 5) := putnumU16_returns addr (by decide)
      refine .bind (memProbe_returns test addr) fun ⟨err, c⟩ => .ite ?_ ?_
      · refine .bind (hputs _) fun _ => .bind (hhex _) fun _ => .bind (hhex _) fun _ => ?_
        refine .bind (hputs _) fun _ => .bind (hhex _) fun _ => ?_
        exact .bind (putsln_returns _) fun _ => .pure false
      · refine .bind (.onlyIf ?_) fun _ => .bind (.onlyIf (hputs _)) fun _ => ih _
        exact .bind (hputs _) fun _ => .bind hnum fun _ => hputs _

omit [MayPrint R] in
theorem memFullPass_returns (seed left : Nat) (addr : Word) (err : Int) :
    Prog.Returns R (MemTest.memFullPass bus seed left addr err) := by
  induction left generalizing addr err with
  | zero => exact .pure err
  | succ left ih =>
      refine .bind (.onlyIf (sramWrite_returns _ _)) fun _ => ?_
      exact .bind (sramRead_returns _) fun _ => ih _ _

theorem memFull_returns (left seed : Nat) (err : Int) :
    Prog.Returns R (MemTest.memFull bus left seed err) := by
  induction left generalizing seed err with
  | zero => exact putsln_returns _
  | succ left ih =>
      have hputs (text : List Byte) : Prog.Returns R (puts text) := puts_returns text
      refine .bind (memFullPass_returns _ _ _ _) fun err' => .bind (hputs _) fun _ => ?_
      refine .bind (putnumU16_returns _ (by decide)) fun _ => .bind (hputs _) fun _ => ?_
      refine .bind (.onlyIf (.bind (hputs _) fun _ => ?_)) fun _ =>
        .bind (hputs _) fun _ => ih _ _
      exact putnumU16_returns _ (by decide)

theorem memChk_returns : Prog.Returns R memChk := by
  refine .bind (memPass_returns 0 65536 0) fun _ => .ite ?_ (.pure ())
  refine .bind (memPass_returns 1 65536 0) fun _ => .ite ?_ (.pure ())
  exact memFull_returns 0x200 0 0

end

/-! ## The card test -/

/-- Fetching the first block again changes nothing. -/
def Settled (card : Card) : Prop := (Sdcard.fetch 0 card).2 = card

theorem loaded_settled {card : Card} {blkAddr : ULong} (hquiet : card.faults = [])
    (h : FetchOk card blkAddr) : Sdcard.fetch blkAddr (card.loaded blkAddr)
      = (0, card.loaded blkAddr) := by
  have hfaults : (card.loaded blkAddr).faults = [] := tail_of_quiet hquiet
  have hholds : (card.loaded blkAddr).image.Holds blkAddr := h.holds
  have hok := hholds.fetchOk h.opened (fault_of_quiet hfaults)
  have hsame : (card.loaded blkAddr).loaded blkAddr = card.loaded blkAddr := by
    have hbuf : splice (card.loaded blkAddr).buffer (card.image.block blkAddr) 0 512
        = (card.loaded blkAddr).buffer := splice_twice _ _ _ _
    have hall : (card.loaded blkAddr).loaded blkAddr
        = { card.loaded blkAddr with
          buffer := splice (card.loaded blkAddr).buffer (card.image.block blkAddr) 0 512
          faults := (card.loaded blkAddr).faults.tail } := rfl
    rw [hall, hbuf, hfaults]
    exact congrArg (fun fs => { card.loaded blkAddr with faults := fs }) hfaults.symm
  rw [fetch_ok hok, hsame]

/-- The blocks of the test other than the first are not fetched at all:
their addresses are not aligned. -/
theorem fetch_unaligned {b : Nat} (hb : 0 < b) (hlt : b < 512) (card : Card) :
    (Sdcard.fetch (BitVec.ofNat 64 b) card).2 = card := by
  have hodd : BitVec.ofNat 64 b &&& 0x1ff#64 ≠ 0#64 := by
    rw [Ne, aligned_iff, BitVec.toNat_ofNat]
    omega
  rw [fetch_run]
  split_ifs
  · rfl
  · rfl

/-- The state after the first `n` turns of the inner loop of phase 1. -/
def State.copied (s : State) (addr : Word) (n : Nat) : State :=
  { s with sram := blit s.sram addr (fun i => s.card.buffer (BitVec.ofNat 16 i).toNat) n }

theorem copy_run (addr : Word) (s : State) {n : Nat} (hn : n ≤ 2 ^ 16) : Prog.upTo n (fun i => do
      sramWrite (addr + BitVec.ofNat 16 i) (← onCard (Sdcard.read (BitVec.ofNat 16 i)))) s
    = some ((), s.copied addr n) :=
  fill_run addr _ s hn fun _ _ _ => rfl

/-- Every 512 bytes of RAM below `n * 512` are those of the buffer. -/
def Mirrors (sram : Mem) (buffer : Nat → Byte) (n : Nat) : Prop :=
  ∀ a : Word, a.toNat < n * 512 → sram a = buffer (a.toNat % 512)

/-! ## The way to the EEPROM -/

section

variable {R : State → State → Prop} [IsPreorder State R] [MayPrint R]

theorem sdcLoad_keeps [MayPoke R] [MayRead (OfVolume R)] (b : Nat) :
    Prog.Keeps R (sdcLoad b) := by
  refine .bind (.discard (onVolume_keeps (fetch_keeps _))) fun _ => .bind (.upTo ?_ _) fun _ => ?_
  · exact fun _ => .bind (readByte_keeps _) fun _ => (sramWrite_returns _ _).keeps
  · refine .bind (puts_returns _).keeps fun _ => .bind ?_ fun _ => (puts_returns _).keeps
    exact (putnumU16_returns _ (by decide)).keeps

theorem sdcCompare_keeps [MayPoke R] (addr i : Word) : Prog.Keeps R (sdcCompare addr i) := by
  have hputs (text : List Byte) : Prog.Keeps R (puts text) := (puts_returns text).keeps
  have hhex (c : Byte) : Prog.Keeps R (puthex c) := (puthex_returns c).keeps
  refine .bind (sramRead_returns _).keeps fun _ => .bind (readByte_keeps _) fun _ => ?_
  refine .ite (.bind (hputs _) fun _ => .bind (hhex _) fun _ => .bind (hhex _) fun _ => ?_) (.pure _)
  refine .bind (hputs _) fun _ => .bind (hhex _) fun _ => .bind (hputs _) fun _ => ?_
  refine .bind (hhex _) fun _ => .bind (putsln_returns _).keeps fun _ => ?_
  exact .bind (sramWrite_returns _ _).keeps fun _ => .pure _

theorem sdcDiffer_keeps [MayPoke R] (addr : Word) (left i : Nat) :
    Prog.Keeps R (sdcDiffer addr left i) := by
  induction left generalizing i with
  | zero => exact .pure 0
  | succ left ih => exact .bind (sdcCompare_keeps _ _) fun _ => .bind (ih _) fun _ => .pure _

theorem sdcVerify_keeps [MayPoke R] [MayRead (OfVolume R)] (fuel : Nat) (block err : Int) :
    Prog.Keeps R (sdcVerify fuel block err) := by
  have hputs (text : List Byte) : Prog.Keeps R (puts text) := (puts_returns text).keeps
  induction fuel generalizing block err with
  | zero => exact .failure
  | succ fuel ih =>
      refine .ite (.bind (.discard (onVolume_keeps (fetch_keeps _))) fun _ => ?_)
        (putsln_returns _).keeps
      refine .bind (sdcDiffer_keeps _ _ _) fun _ => .bind (hputs _) fun _ => ?_
      refine .bind (putnumU16_returns _ (by decide)).keeps fun _ => .bind (hputs _) fun _ => ?_
      refine .bind (Prog.Returns.onlyIf (.bind (puts_returns _) fun _ => ?_)).keeps fun _ => ?_
      · exact putnumU16_returns _ (by decide)
      · exact .bind (hputs _) fun _ => ih _ _

theorem sdcChk_keeps [MayPoke R] [MayRead (OfVolume R)] (fuel : Nat) : Prog.Keeps R (sdcChk fuel) :=
  .bind (.upTo sdcLoad_keeps _) fun _ =>
    .bind (putsln_returns _).keeps fun _ => sdcVerify_keeps _ _ _

theorem openSd_keeps [MayPoke R] [MayReopen (OfVolume R)] [MayRead (OfVolume R)] (fuel : Nat) :
    Prog.Keeps R (openSd fuel) := by
  refine .bind (onVolume_keeps openCard_keeps) fun _ => .ite ?_ ?_
  · exact .bind (putsln_returns _).keeps fun _ => sdcChk_keeps fuel
  · exact .bind (puts_returns _).keeps fun _ => .bind (puthex_returns _).keeps fun _ =>
      (putsln_returns _).keeps

theorem openFat_keeps [MayMount R] [MayRead (OfVolume R)] [MayInit (OfVolume R)]
    [MayEnter (OfVolume R)] : Prog.Keeps R openFat := by
  have hputs (text : List Byte) : Prog.Keeps R (puts text) := (puts_returns text).keeps
  have hhex (c : Byte) : Prog.Keeps R (puthex c) := (puthex_returns c).keeps
  have hmode (mode : Byte) : Prog.Keeps R (do putsln []; modify fun s => { s with sdFat := mode }) :=
    .bind (putsln_returns []).keeps fun _ => .modify fun s => MayMount.mode s mode
  refine .bind (onVolume_keeps fatInit_may) fun _ => .bind (hputs _) fun _ => .ite ?_ ?_
  · exact .ite (.bind (hputs _) fun _ => hmode 1)
      (.ite (.bind (hputs _) fun _ => hmode 1) (.bind (hhex _) fun _ => hmode 1))
  · exact .bind (hhex _) fun _ => hmode 0

/-! ## The EEPROM -/

omit [MayPrint R] in
theorem readString_keeps [MayNote R] (n : Nat) (addr : Word) :
    Prog.Keeps R (readString n addr) := by
  induction n generalizing addr with
  | zero => exact .failure
  | succ n ih =>
      refine .bind (onEeprom_returns _).keeps fun _ => .ite (.pure _) ?_
      exact .bind (ih _) fun _ => .pure _

theorem configure_keeps [MayMount R] [MayNote R] [MayBrowse (OfVolume R)] [MayRead (OfVolume R)]
    [MayOpen (OfVolume R)] (fuel : Nat) : Prog.Keeps R (configure fuel) := by
  have hrom {α : Type} (x : Eeprom.EepromM α) : Prog.Keeps R (onEeprom x) :=
    (onEeprom_returns x).keeps
  refine .bind (hrom _) fun _ => .ite ?_ ?_
  · refine .bind (putsln_returns _).keeps fun _ => .bind ?_ fun _ => .pure _
    exact .bind (.upTo (fun _ => hrom _) _) fun _ => hrom _
  · refine .bind (putsln_returns _).keeps fun _ => .bind ?_ fun _ => .bind (hrom _) fun _ => .pure _
    refine .bind (hrom _) fun _ => .ite (.bind (readString_keeps _ _) fun _ => ?_) (.pure ())
    exact .bind .get fun _ => .ite (mount_keeps fuel _) (.pure ())

end

/-- The image and the EEPROM are what they were. -/
def SameStore (s s' : State) : Prop := s'.card.image = s.card.image ∧ s'.eeprom = s.eeprom

instance : IsPreorder State SameStore where
  refl _ := ⟨rfl, rfl⟩
  trans _ _ _ h h' := ⟨h'.1.trans h.1, h'.2.trans h.2⟩

instance : MayPrint SameStore := ⟨fun _ _ => ⟨rfl, rfl⟩⟩

instance : MayPoke SameStore := ⟨fun _ _ => ⟨rfl, rfl⟩⟩

instance : MayMount SameStore := ⟨fun _ _ => ⟨rfl, rfl⟩⟩

theorem ofVolume_sameStore {v v' : Volume} (h : v'.card.image = v.card.image) :
    OfVolume SameStore v v' := by
  rintro s rfl
  exact ⟨h, rfl⟩

instance : MayRead (OfVolume SameStore) := .of_image fun _ _ => ofVolume_sameStore

instance : MayEnter (OfVolume SameStore) := ⟨fun _ _ _ => ofVolume_sameStore rfl⟩

instance : MayInit (OfVolume SameStore) := ⟨fun _ _ => ofVolume_sameStore rfl⟩

instance : MayReopen (OfVolume SameStore) := ⟨fun _ _ _ => ofVolume_sameStore rfl⟩

end Machine

end CpMega88
