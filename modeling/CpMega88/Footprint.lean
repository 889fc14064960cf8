import CpMega88.Commands
import CpMega88.FatRecord

/-!
# What a routine may touch

Each routine of the file system, the machine and the monitor, by the kinds
of changes it makes. A kind is a class of the relations that allow for it
(`MayPrint`, `MayPoke`, ...), and a relation between the states before and
after that allows for all kinds a routine has is kept by the routine. So
what some commands leave alone is a relation with its instances; the
commands are not gone through again.

The kinds of the file system are about the volume. A relation on the
machine is one on the volume, with the rest as it is (`OfVolume`).
-/

namespace CpMega88

open Bytes Sdcard

namespace Fat

/-! ## Kinds of changes to the volume -/

/-- Blocks come into the buffer, and the place in the open file moves. -/
class MayRead (Q : Volume → Volume → Prop) : Prop where
  fetch : ∀ v blkAddr, Q v { v with card := (Sdcard.fetch blkAddr v.card).2 }
  record : ∀ v cluster offset, Q v { v with lastCluster := cluster, lastOffset := offset }
  seek : ∀ v pos, Q v { v with fileOffset := pos }

/-- The buffer is written, and a block of the card. -/
class MayWrite (Q : Volume → Volume → Prop) : Prop where
  write : ∀ v offset data, Q v { v with card := (Sdcard.write offset data v.card).2 }
  store : ∀ v blkAddr, Q v { v with card := (Sdcard.store blkAddr v.card).2 }

/-- The place in the current directory moves. -/
class MayBrowse (Q : Volume → Volume → Prop) : Prop where
  next : ∀ fuel, Prog.Keeps Q (fatNext fuel)
  rewind : Prog.Keeps Q fatRewind

/-- Another directory is the current one. -/
class MayEnter (Q : Volume → Volume → Prop) : Prop where
  enter : ∀ v cluster offset, Q v { v with dirCluster := cluster, dirOffset := offset }

/-- Another file is the open one. -/
class MayOpen (Q : Volume → Volume → Prop) : Prop where
  cluster : ∀ v cluster, Q v { v with fileCluster := cluster }
  size : ∀ v size, Q v { v with fileSize := size }

/-- The geometry is set. -/
class MayInit (Q : Volume → Volume → Prop) : Prop where
  geometry : ∀ v (g : Geometry), Q v { v with toGeometry := g }

/-- The card is opened anew. -/
class MayReopen (Q : Volume → Volume → Prop) : Prop where
  card : ∀ v blk fp, Q v { v with card := { v.card with curBlk := blk, fp := fp } }

/-! ## The file system -/

variable {Q : Volume → Volume → Prop}

/-- Reading leaves the contents of the card alone. -/
theorem MayRead.of_image (h : ∀ v v' : Volume, v'.card.image = v.card.image → Q v v') :
    MayRead Q where
  fetch v blkAddr := h _ _ (fetch_moved v.card blkAddr).image
  record _ _ _ := h _ _ rfl
  seek _ _ := h _ _ rfl

theorem onCard_keeps {α : Type} {x : CardM α} (h : ∀ v, Q v { v with card := (x v.card).2 }) :
    Prog.Keeps Q (onCard x) := by
  rintro v a v' hrun
  cases hrun
  exact h v

theorem fetch_keeps [MayRead Q] (blkAddr : ULong) :
    Prog.Keeps Q (onCard (Sdcard.fetch blkAddr)) :=
  onCard_keeps fun v => MayRead.fetch v blkAddr

theorem write_keeps [MayWrite Q] (offset : Word) (data : Byte) :
    Prog.Keeps Q (onCard (Sdcard.write offset data)) :=
  onCard_keeps fun v => MayWrite.write v offset data

theorem store_keeps [MayWrite Q] (blkAddr : ULong) :
    Prog.Keeps Q (onCard (Sdcard.store blkAddr)) :=
  onCard_keeps fun v => MayWrite.store v blkAddr

theorem flush_keeps [MayWrite Q] : Prog.Keeps Q (onCard Sdcard.flush) :=
  onCard_keeps fun v => MayWrite.store v v.card.curBlk

theorem init_keeps [MayReopen Q] : Prog.Keeps Q (onCard Sdcard.init) :=
  onCard_keeps fun v => MayReopen.card v 0 none

theorem openCard_keeps [MayReopen Q] : Prog.Keeps Q (onCard openCard) :=
  onCard_keeps fun v => MayReopen.card v v.card.curBlk v.card.access

variable [IsPreorder Volume Q]

theorem walk_keeps [MayRead Q] (fuel : Nat) (c : Word) (o : ULong) :
    Prog.Keeps Q (walk fuel c o) := by
  induction fuel generalizing c o with
  | zero => exact .failure
  | succ fuel ih =>
      refine .bind .get fun v => .ite ?_ (.pure _)
      refine .bind (fetch_keeps _) fun _ => .ite (.pure _) ?_
      exact .bind (read2_keeps _) fun _ => .ite (.pure _) (ih _ _)

theorem fetchCluster_keeps [MayRead Q] (fuel : Nat) (c : Word) (o : ULong) :
    Prog.Keeps Q (fetchCluster fuel c o) := by
  refine .bind .get fun v => .ite (.pure _) ?_
  refine .bind (.modify fun v => MayRead.record v c o) fun _ => .ite (fetch_keeps _) ?_
  refine .bind (walk_keeps fuel c o) fun r => ?_
  cases r with
  | error e => exact .pure e
  | ok p => exact fetch_keeps _

theorem fatSeek_keeps [MayRead Q] (pos : ULong) : Prog.Keeps Q (fatSeek pos) :=
  .bind .get fun _ => .ite (.pure _) (.bind (.modify fun v => MayRead.seek v pos) fun _ => .pure _)

theorem fatRead_keeps [MayRead Q] (fuel : Nat) : Prog.Keeps Q (fatRead fuel) :=
  .bind .get fun _ => fetchCluster_keeps fuel _ _

theorem fatAttr_keeps : Prog.Keeps Q fatAttr := .bind .get fun _ => read_keeps _

theorem nameFrom_keeps (left i : Nat) : Prog.Keeps Q (nameFrom left i) := by
  induction left generalizing i with
  | zero => exact .pure []
  | succ left ih =>
      refine .bind .get fun _ => .bind (read_keeps _) fun _ => .bind (ih _) fun _ => ?_
      exact .ite (.pure _) (.ite (.pure _) (.pure _))

theorem fatName_keeps : Prog.Keeps Q fatName := nameFrom_keeps 11 0

theorem nextLoop_keeps [MayRead Q] (h : ∀ v offset, Q v { v with dirOffset := offset })
    (fuel left : Nat) : Prog.Keeps Q (nextLoop fuel left) := by
  induction left with
  | zero => exact .pure _
  | succ left ih =>
      refine .bind .get fun v => .bind (fetchCluster_keeps _ _ _) fun _ => .ite (.pure _) ?_
      refine .bind (read_keeps _) fun _ => .bind fatAttr_keeps fun _ => .ite ?_ (.pure _)
      exact .bind (.modify fun v => h v _) fun _ => ih

/-- Going on in the directory is reading it. -/
theorem MayBrowse.of_read [MayRead Q] (h : ∀ v offset, Q v { v with dirOffset := offset }) :
    MayBrowse Q where
  next _ := .bind (.modify fun v => h v _) fun _ => .bind .get fun _ => nextLoop_keeps h _ _
  rewind := .modify fun v => h v _

theorem fatChdir_keeps [MayEnter Q] : Prog.Keeps Q fatChdir :=
  .bind .get fun _ => .bind (read2_keeps _) fun _ =>
    .bind (.modify fun v => MayEnter.enter v _ v.dirOffset) fun _ =>
      .bind (.modify fun v => MayEnter.enter v v.dirCluster _) fun _ => .pure _

theorem fatOpen_keeps [MayRead Q] [MayOpen Q] : Prog.Keeps Q fatOpen := by
  refine .bind .get fun _ => .bind (read2_keeps _) fun _ => ?_
  refine .bind (.modify fun v => MayOpen.cluster v _) fun _ => .bind (.bind .get fun _ => ?_) ?_
  · exact .bind (read2_keeps _) fun _ => .bind (read2_keeps _) fun _ => .pure _
  · exact fun _ => .bind (.modify fun v => MayOpen.size v _) fun _ => fatSeek_keeps 0

theorem fatInit_may [MayRead Q] [MayInit Q] [MayEnter Q] : Prog.Keeps Q fatInit :=
  fatInit_keeps fetch_keeps (fun v first _ => MayInit.geometry v { v.toGeometry with
    fatFirstSect := first }) (fun v _ _ _ _ _ _ _ _ _ => MayInit.geometry v _)
    fun v cluster offset => MayEnter.enter v cluster offset

end Fat

namespace Machine

open Fat

/-! ## Kinds of changes to the machine -/

/-- Nothing is taken back that was written, and input comes in order. -/
def Onward (con con' : Con.Console) : Prop :=
  con.stdout <+: con'.stdout ∧ con'.stdin <:+ con.stdin

instance : Std.Refl Onward := ⟨fun _ => ⟨List.prefix_rfl, List.suffix_rfl⟩⟩

instance : IsTrans Con.Console Onward where
  trans _ _ _ h h' := ⟨h.1.trans h'.1, h'.2.trans h.2⟩

/-- A text is sent to the console. -/
class MayPrint (R : State → State → Prop) : Prop where
  said : ∀ s text, R s (s.said text)

/-- The console is read. -/
class MayHear (R : State → State → Prop) : Prop where
  heard : ∀ s con, Onward s.console con → R s { s with console := con }

class MayPoke (R : State → State → Prop) : Prop where
  sram : ∀ s sram, R s { s with sram := sram }

/-- The registers behind the ports are set. -/
class MayLatch (R : State → State → Prop) : Prop where
  latch : ∀ s drive track sect diskErr dmaLo dmaHi esc, R s { s with
    drive := drive
    track := track
    sect := sect
    diskErr := diskErr
    dmaLo := dmaLo
    dmaHi := dmaHi
    esc := esc }

class MayNote (R : State → State → Prop) : Prop where
  eeprom : ∀ s eeprom, R s { s with eeprom := eeprom }

/-- The settings of the monitor change. -/
class MaySet (R : State → State → Prop) : Prop where
  setting : ∀ s wrPrt vtCnv, R s { s with wrPrt := wrPrt, vtCnv := vtCnv }

class MayMount (R : State → State → Prop) : Prop where
  mode : ∀ s sdFat, R s { s with sdFat := sdFat }

/-- The relation on the volume, with the rest of the machine as it is. -/
def OfVolume (R : State → State → Prop) (v v' : Volume) : Prop :=
  ∀ s, s.volume = v → R s { s with volume := v' }

variable {R : State → State → Prop}

instance [IsPreorder State R] : IsPreorder Volume (OfVolume R) where
  refl v s h := by
    subst h
    exact Std.Refl.refl s
  trans _ v' _ h h' s hs := IsTrans.trans _ _ _ (h s hs) (h' { s with volume := v' } rfl)

theorem onVolume_eq_some {α : Type} {x : FatM α} {s s' : State} {a : α} :
    onVolume x s = some (a, s') ↔ ∃ v, x s.volume = some (a, v) ∧ s' = { s with volume := v } := by
  simp only [onVolume, Option.map_eq_some_iff, Prod.exists, Prod.mk.injEq]
  constructor
  · rintro ⟨b, v, hx, rfl, rfl⟩
    exact ⟨v, hx, rfl⟩
  · rintro ⟨v, hx, rfl⟩
    exact ⟨a, v, hx, rfl, rfl⟩

theorem onVolume_of_run {α : Type} {x : FatM α} {s : State} {v : Volume} {a : α}
    (h : x s.volume = some (a, v)) : onVolume x s = some (a, { s with volume := v }) :=
  onVolume_eq_some.mpr ⟨v, h, rfl⟩

theorem onVolume_keeps {α : Type} {x : FatM α} (h : Prog.Keeps (OfVolume R) x) :
    Prog.Keeps R (onVolume x) := by
  intro s a s' hrun
  obtain ⟨v, hx, rfl⟩ := onVolume_eq_some.mp hrun
  exact h _ _ _ hx s rfl

theorem onEeprom_returns [MayNote R] {α : Type} (x : Eeprom.EepromM α) :
    Prog.Returns R (onEeprom x) :=
  fun s => ⟨_, _, rfl, MayNote.eeprom s _⟩

theorem sramWrite_returns [MayPoke R] (addr : Word) (data : Byte) :
    Prog.Returns R (sramWrite addr data) :=
  .modify fun s => MayPoke.sram s _

theorem setDiskErr_returns [MayLatch R] (err : Byte) : Prog.Returns R (setDiskErr err) :=
  .modify fun s => MayLatch.latch s s.drive s.track s.sect err s.dmaLo s.dmaHi s.esc

theorem setEsc_returns [MayLatch R] (esc : Byte) : Prog.Returns R (setEsc esc) :=
  .modify fun s => MayLatch.latch s s.drive s.track s.sect s.diskErr s.dmaLo s.dmaHi esc

/-! ### The console -/

theorem said_returns [MayPrint R] {x : Prog Con.Console Unit}
    (h : ∀ con, ∃ text, x con = some ((), con.said text)) : Prog.Returns R (onConsole x) := by
  intro s
  obtain ⟨text, ht⟩ := h s.console
  exact ⟨(), s.said text, HasConsole.onConsole_said ht, MayPrint.said s text⟩

theorem putchar_returns [MayPrint R] (c : Byte) : Prog.Returns R (putchar c) :=
  said_returns fun _ => ⟨_, rfl⟩

theorem puts_returns [MayPrint R] (text : List Byte) : Prog.Returns R (puts text) :=
  said_returns fun con => ⟨_, congrArg some (Con.puts_run text con)⟩

theorem putsln_returns [MayPrint R] (text : List Byte) : Prog.Returns R (putsln text) :=
  said_returns fun con => ⟨_, congrArg some (Con.putsln_run text con)⟩

theorem puthex_returns [MayPrint R] (c : Byte) : Prog.Returns R (puthex c) :=
  said_returns fun con => ⟨_, congrArg some (Con.puthex_run c con)⟩

theorem putnumU16_returns [MayPrint R] (n : Word) {digit : Int} (h : digit < 6) :
    Prog.Returns R (putnumU16 n digit) :=
  said_returns fun con => ⟨_, Con.putnumU16_run h n con⟩

theorem said_onward (con : Con.Console) (text : List Byte) : Onward con (con.said text) :=
  ⟨List.prefix_append _ _, List.suffix_rfl⟩

theorem taken_onward (con : Con.Console) (c : Int) :
    Onward con { con with stdin := con.stdin.tail, fifoFlag := c } :=
  ⟨List.prefix_rfl, List.tail_suffix _⟩

theorem peek_onward : Prog.Keeps Onward (Prog.lift Con.peek) := by
  intro con a con' hrun
  have hend : (Con.peek con).2 = con' := congrArg Prod.snd (Option.some.inj hrun)
  rw [← hend, Con.peek_run]
  exact taken_onward con _

theorem getchar_onward : Prog.Keeps Onward (Prog.lift Con.getchar) := by
  intro con a con' hrun
  have hend : (Con.getchar con).2 = con' := congrArg Prod.snd (Option.some.inj hrun)
  rw [← hend, Con.getchar_run]
  split
  · exact taken_onward con _
  · exact ⟨List.prefix_rfl, List.suffix_rfl⟩

theorem waitChar_onward (left : Nat) : Prog.Keeps Onward (waitChar left) := by
  induction left with
  | zero => exact .failure
  | succ left ih => exact .bind getchar_onward fun c => .ite ih (.pure c)

theorem heard_keeps [MayHear R] {α : Type} {x : Prog Con.Console α} (h : Prog.Keeps Onward x) :
    Prog.Keeps R (onConsole x) := by
  intro s a s' hrun
  obtain ⟨⟨b, con⟩, hx, hend⟩ := Option.map_eq_some_iff.mp hrun
  cases hend
  exact MayHear.heard s con (h _ _ _ hx)

/-! ### Ports -/

variable [IsPreorder State R]

theorem sramRead_returns (addr : Word) : Prog.Returns R (sramRead addr) :=
  fun s => ⟨_, s, rfl, Std.Refl.refl s⟩

theorem readByte_keeps (off : Word) : Prog.Keeps R (onCard (Sdcard.read off)) :=
  onVolume_keeps (read_keeps off)

theorem diskRead_keeps [MayRead (OfVolume R)] (fuel : Nat) (blk : ULong) :
    Prog.Keeps R (diskRead fuel blk) :=
  .bind .get fun _ => .ite (.discard (onVolume_keeps (fetch_keeps blk)))
    (.bind (.discard (onVolume_keeps (fatSeek_keeps blk))) fun _ =>
      .discard (onVolume_keeps (fatRead_keeps fuel)))

theorem receive_keeps [MayPoke R] [MayLatch R] (off dma : Word) :
    Prog.Keeps R (receive off dma) :=
  .bind (.upTo (fun _ => .bind (readByte_keeps _) fun _ => (sramWrite_returns _ _).keeps) _)
    fun _ => (setDiskErr_returns 0).keeps

theorem send_keeps [MayPrint R] [MayLatch R] [MayWrite (OfVolume R)] (off dma : Word) :
    Prog.Keeps R (send off dma) := by
  refine .bind (.upTo (fun _ => ?_) _) fun _ => .bind (onVolume_keeps flush_keeps) fun _ => ?_
  · exact .bind (sramRead_returns _).keeps fun _ => onVolume_keeps (write_keeps _ _)
  · refine .bind (setDiskErr_returns _).keeps fun _ => .bind .get fun _ => .ite ?_ (.pure _)
    refine .bind (puts_returns _).keeps fun _ => .bind (puthex_returns _).keeps fun _ => ?_
    exact .bind (putsln_returns _).keeps fun _ => (setDiskErr_returns 6).keeps

theorem command_keeps [MayPrint R] [MayPoke R] [MayLatch R] [MayRead (OfVolume R)]
    [MayWrite (OfVolume R)] (fuel : Nat) (val : Byte) : Prog.Keeps R (command fuel val) := by
  refine .bind .get fun _ => .ite (.bind (diskRead_keeps fuel _) fun _ => ?_)
    (setDiskErr_returns 1).keeps
  exact .ite (receive_keeps _ _) (.ite (send_keeps _ _) (setDiskErr_returns 7).keeps)

theorem terminal_keeps [MayPrint R] [MayLatch R] (val : Byte) :
    Prog.Keeps R (terminal val) := by
  have hesc (esc : Byte) : Prog.Keeps R (setEsc esc) := (setEsc_returns esc).keeps
  have hputs (text : List Byte) : Prog.Keeps R (puts text) := (puts_returns text).keeps
  have hput (c : Byte) : Prog.Keeps R (putchar c) := (putchar_returns c).keeps
  have hnum (n : Word) : Prog.Keeps R (putnumU16 n (-1)) :=
    (putnumU16_returns n (by decide)).keeps
  refine .bind .get fun s => .bind .get fun t => ?_
  split
  · have hclear : Prog.Keeps R (do puts (ascii "\x1b[2J"); setEsc 0) :=
      .bind (hputs _) fun _ => hesc _
    exact .ite (hesc _) (.ite (.ite hclear (hesc _)) (hesc _))
  · exact .ite (.bind (hputs _) fun _ => .bind (hnum _) fun _ => hesc _) (hesc _)
  · refine .ite (.bind (hput _) fun _ => .bind (hnum _) fun _ => ?_) (hesc _)
    exact .bind (hput _) fun _ => hesc _
  · refine .bind .get fun _ => .ite (hput _) (.ite (.ite (hputs _) (.pure _)) ?_)
    exact .ite (hesc _) (hput _)

/-- No port but 13 has to do with RAM or the card. -/
theorem out_keeps_of_ne [MayPrint R] [MayLatch R] (fuel : Nat) {port : Byte} (hport : port ≠ 13)
    (val : Byte) : Prog.Keeps R (out fuel port val) := by
  unfold out
  split
  · exact .pure _
  · exact terminal_keeps val
  · exact .modify fun s => MayLatch.latch s val s.track s.sect s.diskErr s.dmaLo s.dmaHi s.esc
  · exact .modify fun s => MayLatch.latch s s.drive val s.sect s.diskErr s.dmaLo s.dmaHi s.esc
  · exact .modify fun s => MayLatch.latch s s.drive s.track val s.diskErr s.dmaLo s.dmaHi s.esc
  · exact absurd rfl hport
  · exact .pure _
  · exact .modify fun s => MayLatch.latch s s.drive s.track s.sect s.diskErr val s.dmaHi s.esc
  · exact .modify fun s => MayLatch.latch s s.drive s.track s.sect s.diskErr s.dmaLo val s.esc
  · exact .pure _

theorem out_keeps [MayPrint R] [MayPoke R] [MayLatch R] [MayRead (OfVolume R)]
    [MayWrite (OfVolume R)] (fuel : Nat) (port val : Byte) : Prog.Keeps R (out fuel port val) := by
  by_cases hport : port = 13
  · subst hport
    exact command_keeps fuel val
  · exact out_keeps_of_ne fuel hport val

theorem input_keeps [MayHear R] (port : Byte) : Prog.Keeps R (input port) := by
  unfold input
  split
  · exact .bind (heard_keeps peek_onward) fun _ => .ite (.pure _) (.pure _)
  · exact .bind .get fun _ => .bind (heard_keeps (waitChar_onward _)) fun _ => .pure _
  all_goals first | exact .pure _ | exact .bind .get fun _ => .pure _

/-! ## The monitor -/

theorem mountLoop_keeps [MayPrint R] [MayMount R] [MayNote R] [MayBrowse (OfVolume R)]
    [MayRead (OfVolume R)] [MayOpen (OfVolume R)] (fuel : Nat) (name : List Byte) (left : Nat) :
    Prog.Keeps R (mountLoop fuel name left) := by
  have hmode (mode : Byte) : Prog.Keeps R (modify fun s => { s with sdFat := mode }) :=
    .modify fun s => MayMount.mode s mode
  have hrom (x : Eeprom.EepromM Unit) : Prog.Keeps R (onEeprom x) := (onEeprom_returns x).keeps
  induction left with
  | zero => exact .failure
  | succ left ih =>
      refine .bind (onVolume_keeps (MayBrowse.next fuel)) fun _ => .ite ?_ ?_
      · exact .bind (putsln_returns _).keeps fun _ => hmode 0
      · refine .bind (onVolume_keeps fatName_keeps) fun _ => .ite ih ?_
        refine .bind (.discard (onVolume_keeps fatOpen_keeps)) fun _ => ?_
        refine .bind (putsln_returns _).keeps fun _ => .bind (hmode 1) fun _ => ?_
        exact .bind (hrom _) fun _ => .bind (hrom _) fun _ => hrom _

theorem mount_keeps [MayPrint R] [MayMount R] [MayNote R] [MayBrowse (OfVolume R)]
    [MayRead (OfVolume R)] [MayOpen (OfVolume R)] (fuel : Nat) (name : List Byte) :
    Prog.Keeps R (mount fuel name) :=
  .bind (puts_returns _).keeps fun _ => .bind (puts_returns _).keeps fun _ =>
    .bind (onVolume_keeps MayBrowse.rewind) fun _ => .bind .get fun _ => mountLoop_keeps fuel name _

theorem lsLoop_keeps [MayPrint R] [MayBrowse (OfVolume R)] (fuel left : Nat) :
    Prog.Keeps R (lsLoop fuel left) := by
  have hput (c : Byte) : Prog.Keeps R (putchar c) := (putchar_returns c).keeps
  induction left with
  | zero => exact .failure
  | succ left ih =>
      refine .bind (onVolume_keeps (MayBrowse.next fuel)) fun _ => .ite (.pure _) ?_
      refine .bind (onVolume_keeps fatAttr_keeps) fun _ => ?_
      refine .bind (onVolume_keeps fatName_keeps) fun name => ?_
      refine .bind (hput _) fun _ => .bind (hput _) fun _ => .bind (hput _) fun _ => ?_
      refine .bind (hput _) fun _ => .bind (hput _) fun _ => .bind (hput _) fun _ => ?_
      exact .bind (puts_returns name).keeps fun _ => .bind (putsln_returns _).keeps fun _ => ih

theorem ls_keeps [MayPrint R] [MayBrowse (OfVolume R)] (fuel : Nat) : Prog.Keeps R (ls fuel) :=
  .bind (onVolume_keeps MayBrowse.rewind) fun _ => .bind .get fun _ => lsLoop_keeps fuel _

theorem cdLoop_keeps [MayBrowse (OfVolume R)] [MayEnter (OfVolume R)] (fuel : Nat) (arg : List Byte)
    (left : Nat) : Prog.Keeps R (cdLoop fuel arg left) := by
  induction left with
  | zero => exact .failure
  | succ left ih =>
      refine .bind (onVolume_keeps (MayBrowse.next fuel)) fun _ => .ite (.pure _) ?_
      refine .bind (onVolume_keeps fatAttr_keeps) fun _ => .ite ih ?_
      refine .bind (onVolume_keeps fatName_keeps) fun _ => .ite ih ?_
      exact .discard (onVolume_keeps fatChdir_keeps)

theorem cd_keeps [MayBrowse (OfVolume R)] [MayEnter (OfVolume R)] [MayRead (OfVolume R)]
    [MayInit (OfVolume R)] (fuel : Nat) (arg : Option (List Byte)) : Prog.Keeps R (cd fuel arg) := by
  cases arg with
  | none => exact .discard (onVolume_keeps fatInit_may)
  | some arg =>
      exact .bind (onVolume_keeps MayBrowse.rewind) fun _ => .bind .get fun _ =>
        cdLoop_keeps fuel arg _

theorem bootBlock_keeps [MayPoke R] [MayRead (OfVolume R)] (fuel i : Nat) :
    Prog.Keeps R (bootBlock fuel i) :=
  .bind (diskRead_keeps fuel _) fun _ =>
    .upTo (fun _ => .bind (readByte_keeps _) fun _ => (sramWrite_returns _ _).keeps) _

/-- The end of `boot`, once the system is loaded. -/
theorem bootVectors_keeps [MayPoke R] : Prog.Keeps R (do
    Prog.upTo 0x100 fun i => sramWrite (BitVec.ofNat 16 i) 0
    sramWrite 0x0000 0xc3
    sramWrite 0x0001 0x00
    sramWrite 0x0002 0xfa
    sramWrite 0x0005 0xc3
    sramWrite 0x0006 0x06
    sramWrite 0x0007 (0x3c + 0xb0)) := by
  have hwrite (addr : Word) (data : Byte) : Prog.Keeps R (sramWrite addr data) :=
    (sramWrite_returns addr data).keeps
  exact .bind (.upTo (fun _ => hwrite _ _) _) fun _ => .bind (hwrite _ _) fun _ =>
    .bind (hwrite _ _) fun _ => .bind (hwrite _ _) fun _ => .bind (hwrite _ _) fun _ =>
      .bind (hwrite _ _) fun _ => hwrite _ _

theorem boot_keeps [MayPoke R] [MayRead (OfVolume R)] (fuel : Nat) : Prog.Keeps R (boot fuel) :=
  .bind (.upTo (bootBlock_keeps fuel) _) fun _ => bootVectors_keeps

/-! ### Commands with an argument -/

theorem puthexWord_returns [MayPrint R] (n : Word) : Prog.Returns R (puthexWord n) :=
  .bind (puthex_returns _) fun _ => puthex_returns _

theorem usage_returns [MayPrint R] : Prog.Returns R usage := by
  have hlines (lines : List (List Byte)) : Prog.Returns R (Prog.runAll putsln lines) := by
    induction lines with
    | nil => exact .pure ()
    | cons line lines ih => exact .bind (putsln_returns line) fun _ => ih
  exact hlines helpText

theorem withArg_keeps [MayPrint R] {x : List Byte → MachineM Unit}
    (hx : ∀ arg, Prog.Keeps R (x arg)) (arg : Option (List Byte)) :
    Prog.Keeps R (withArg arg x) := by
  cases arg with
  | none => exact usage_returns.keeps
  | some arg => exact hx arg

/-- `wp` and `vt`, by the setting they make. -/
theorem setting_returns [MayPrint R] {text arg : List Byte} (set : Byte → State → State)
    (hset : ∀ v s, R s (set v s)) : Prog.Returns R (do
      puts text
      if strdcmp (ascii "on") arg 0 = 0 then
        puts (ascii " on")
        modify (set 1)
      else
        puts (ascii " off")
        modify (set 0)
      putsln (ascii ">") : MachineM Unit) := by
  refine .bind (puts_returns _) fun _ => .ite ?_ ?_
  · exact .bind (puts_returns _) fun _ => .bind (.modify (hset 1)) fun _ => putsln_returns _
  · exact .bind (puts_returns _) fun _ => .bind (.modify (hset 0)) fun _ => putsln_returns _

theorem wp_returns [MayPrint R] [MaySet R] (arg : List Byte) : Prog.Returns R (wp arg) :=
  setting_returns (fun v s => { s with wrPrt := v }) fun v s => MaySet.setting s v s.vtCnv

theorem number_returns {arg : List Byte} (h : (getnum arg).isSome) :
    Prog.Returns R (number arg) := by
  intro s
  obtain ⟨n, hn⟩ := Option.isSome_iff_exists.mp h
  refine ⟨n, s, ?_, Std.Refl.refl s⟩
  rw [number, hn]
  rfl

theorem number_keeps (arg : List Byte) : Prog.Keeps R (number arg) := by
  intro s n s' h
  obtain ⟨m, -, hend⟩ := Option.map_eq_some_iff.mp h
  cases hend
  exact Std.Refl.refl s

theorem memoryRead_returns [MayPrint R] {arg : List Byte} (h : (getnum arg).isSome) :
    Prog.Returns R (memoryRead arg) := by
  refine .bind (number_returns h) fun _ => .bind (puts_returns _) fun _ => ?_
  refine .bind (puthexWord_returns _) fun _ => .bind (putsln_returns _) fun _ => ?_
  exact .bind (sramRead_returns _) fun _ => .bind (puthex_returns _) fun _ => putsln_returns _

theorem memoryRead_keeps [MayPrint R] (arg : List Byte) : Prog.Keeps R (memoryRead arg) := by
  intro s u s' hrun
  obtain ⟨n, t, hn, -⟩ := Prog.bind_eq_some.mp hrun
  obtain ⟨m, hm, -⟩ := Option.map_eq_some_iff.mp hn
  exact (memoryRead_returns (Option.isSome_iff_exists.mpr ⟨m, hm⟩)).keeps s u s' hrun

theorem dumpLoop_returns [MayPrint R] (left i : Nat) (buf : List Byte) :
    Prog.Returns R (dumpLoop left i buf) := by
  induction left generalizing i buf with
  | zero => exact .pure ()
  | succ left ih =>
      have hread : Prog.Returns R (onCard (Sdcard.read (BitVec.ofNat 16 i))) :=
        fun s => ⟨_, s, rfl, Std.Refl.refl s⟩
      refine .bind (.onlyIf (putchar_returns _)) fun _ => .bind hread fun _ => ?_
      refine .bind (puthex_returns _) fun _ => .ite ?_ (ih _ _)
      refine .bind (puts_returns _) fun _ => .bind (puts_returns _) fun _ => ?_
      exact .bind (putsln_returns _) fun _ => ih _ _

theorem sdcardDump_returns [MayPrint R] : Prog.Returns R sdcardDump :=
  .bind (putsln_returns _) fun _ => .bind (dumpLoop_returns _ _ _) fun _ =>
    .bind (puts_returns _) fun _ => .bind (puthexWord_returns _) fun _ => putsln_returns _

theorem sdcardResult_returns [MayPrint R] (rc : Byte) : Prog.Returns R (sdcardResult rc) :=
  .ite (putsln_returns _) (.bind (puts_returns _) fun _ => .bind (puthex_returns _) fun _ =>
    putsln_returns _)

theorem sdcardOpen_keeps [MayPrint R] [MayReopen (OfVolume R)] : Prog.Keeps R sdcardOpen := by
  refine .bind (putsln_returns _).keeps fun _ => .bind (onVolume_keeps openCard_keeps) fun _ => ?_
  refine .ite (putsln_returns _).keeps (.bind (puts_returns _).keeps fun _ => ?_)
  exact .bind (puthex_returns _).keeps fun _ => (putsln_returns _).keeps

/-- `sf` and `ss`, by the call they make. -/
theorem transfer_keeps [MayPrint R] {arg text : List Byte} {x : ULong → CardM Int}
    (hx : ∀ a, Prog.Keeps (OfVolume R) (Fat.onCard (x a))) : Prog.Keeps R (do
      let addr := BitVec.ofInt 64 (← number arg)
      puts text
      puthexWord (addr.setWidth 16)
      putsln (ascii ">")
      sdcardResult (BitVec.ofInt 8 (← onCard (x (addr <<< 9)))) : MachineM Unit) := by
  refine .bind (number_keeps arg) fun _ => .bind (puts_returns _).keeps fun _ => ?_
  refine .bind (puthexWord_returns _).keeps fun _ => .bind (putsln_returns _).keeps fun _ => ?_
  exact .bind (onVolume_keeps (hx _)) fun _ => (sdcardResult_returns _).keeps

theorem sdcardFetch_keeps [MayPrint R] [MayRead (OfVolume R)] (arg : List Byte) :
    Prog.Keeps R (sdcardFetch arg) := transfer_keeps fetch_keeps

theorem sdcardStore_keeps [MayPrint R] [MayWrite (OfVolume R)] (arg : List Byte) :
    Prog.Keeps R (sdcardStore arg) := transfer_keeps store_keeps

end Machine

end CpMega88
