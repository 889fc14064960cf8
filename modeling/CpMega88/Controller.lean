import CpMega88.Machine

/-!
# The disk controller

What the commands on port 13 do, part by part: the block is fetched, and
then 128 bytes go from the card buffer to RAM (`receive_run`) or from RAM
to the buffer and the buffer to the card (`send_ok`, `send_fails`).

In raw mode the fetch may fail without anybody noticing.
`failed_fetch_iff` says exactly when the command nevertheless does what a
failed command should: report an error and change nothing.
-/

namespace CpMega88

open Bytes Fat Sdcard Splice

namespace Machine

def State.card (s : State) : Card := s.volume.card

def State.withCard (s : State) (card : Card) : State :=
  { s with volume := { s.volume with card := card } }

@[simp] theorem withCard_card (s : State) (card : Card) : (s.withCard card).card = card := rfl

theorem onCard_run {α : Type} (x : CardM α) (s : State) :
    onCard x s = some ((x s.card).1, s.withCard (x s.card).2) := rfl

theorem onCard_bind_run {α β : Type} (x : CardM α) (k : α → MachineM β) (s : State) :
    (onCard x >>= k) s = k (x s.card).1 (s.withCard (x s.card).2) := rfl

theorem off_lt (s : State) : s.off.toNat = s.pos.toNat % 512 := by
  rw [State.off, BitVec.toNat_setWidth, toNat_and_1ff]
  omega

/-! ## Transfers -/

/-- A loop that writes the cells from `addr` on, one in each turn. -/
theorem fill_run {body : Nat → MachineM Unit} (addr : Word) (g : Nat → Byte) (s : State) {n : Nat}
    (hn : n ≤ 2 ^ 16) (hbody : ∀ i < n, ∀ sram, body i { s with sram := sram }
      = some ((), { s with sram := Function.update sram (addr + BitVec.ofNat 16 i) (g i) })) :
    Prog.upTo n body s = some ((), { s with sram := blit s.sram addr g n }) := by
  have hloop : Prog.upTo n body { s with sram := blit s.sram addr g 0 }
      = some ((), { s with sram := blit s.sram addr g n }) := by
    refine @Prog.upTo_eq _ _ (fun m => { s with sram := blit s.sram addr g m }) n fun i hi => ?_
    rw [hbody i hi, blit_succ _ _ _ (by omega)]
  rwa [blit_zero] at hloop

/-- The state after the first `n` turns of the loop of `receive`. -/
def State.taken (s : State) (off dma : Word) (n : Nat) : State :=
  { s with sram := blit s.sram dma (fun i => s.card.buffer (off + BitVec.ofNat 16 i).toNat) n }

theorem receive_run (off dma : Word) (s : State) :
    receive off dma s = some ((), { s.taken off dma 128 with diskErr := 0 }) := by
  have hloop : Prog.upTo 128 (fun i => do
      sramWrite (dma + BitVec.ofNat 16 i) (← onCard (Sdcard.read (off + BitVec.ofNat 16 i)))) s
      = some ((), s.taken off dma 128) :=
    fill_run dma _ s (by decide) fun _ _ _ => rfl
  rw [receive, Prog.bind_of_run hloop]
  rfl

/-- The state after the first `n` turns of the loop of `send`. -/
def State.given (s : State) (off dma : Word) (n : Nat) : State :=
  s.withCard { s.card with
    buffer := splice s.card.buffer (fun i => s.sram (dma + BitVec.ofNat 16 i)) off.toNat n }

theorem given_zero (s : State) (off dma : Word) : s.given off dma 0 = s := by
  rw [State.given, splice_zero]
  rfl

theorem send_loop {off : Word} (hoff : off.toNat + 128 ≤ 2 ^ 16) (dma : Word) (s : State) :
    Prog.upTo 128 (fun i => do
      onCard (Sdcard.write (off + BitVec.ofNat 16 i) (← sramRead (dma + BitVec.ofNat 16 i)))) s
      = some ((), s.given off dma 128) := by
  have hloop : Prog.upTo 128 (fun i => do
      onCard (Sdcard.write (off + BitVec.ofNat 16 i) (← sramRead (dma + BitVec.ofNat 16 i))))
      (s.given off dma 0) = some ((), s.given off dma 128) := by
    refine Prog.upTo_eq fun i hi => ?_
    have hat : (off + BitVec.ofNat 16 i).toNat = off.toNat + i := by
      rw [BitVec.toNat_add, BitVec.toNat_ofNat]
      omega
    have hread : sramRead (dma + BitVec.ofNat 16 i) (s.given off dma i)
        = some (s.sram (dma + BitVec.ofNat 16 i), s.given off dma i) := rfl
    rw [Prog.bind_of_run hread, onCard_run, State.given, State.given, splice_succ]
    simp only [Sdcard.write, Runs.modify_run, hat]
    rfl
  rwa [given_zero] at hloop

theorem storeOk_given {off dma : Word} {s : State} {n : Nat} {blkAddr : ULong} :
    StoreOk (s.given off dma n).card blkAddr ↔ StoreOk s.card blkAddr :=
  ⟨fun h => ⟨h.writable, h.aligned, h.seeks, h.taken⟩,
    fun h => ⟨h.writable, h.aligned, h.seeks, h.taken⟩⟩

theorem send_ok {off : Word} (hoff : off.toNat + 128 ≤ 2 ^ 16) (dma : Word) {s : State}
    (h : StoreOk s.card s.card.curBlk) :
    send off dma s = some ((), { s.withCard { (s.given off dma 128).card with
      image := fwriteImage s.card.image (s.given off dma 128).card.buffer s.card.curBlk
      faults := s.card.faults.tail } with diskErr := 0 }) := by
  have hgiven : StoreOk (s.given off dma 128).card (s.given off dma 128).card.curBlk :=
    storeOk_given.mpr h
  rw [send, Prog.bind_of_run (send_loop hoff dma s), onCard_bind_run, flush_run, store_ok hgiven]
  rfl

theorem ofInt_ne_zero {e : Int} (h : e < 0) (h' : -4 ≤ e) : BitVec.ofInt 8 e ≠ 0 := by
  have hcases : e = -1 ∨ e = -2 ∨ e = -3 ∨ e = -4 := by omega
  rcases hcases with rfl | rfl | rfl | rfl <;> decide

theorem report_run (err : Byte) (s : State) : ∃ console, (do
      puts (ascii "\r\n\r\nI/O ERROR (")
      onConsole (Prog.lift (Con.puthex err))
      putsln (ascii ")\r\n\r\n")
      setDiskErr 6) s = some ((), { s with console := console, diskErr := 6 }) :=
  ⟨_, rfl⟩

/-- A store that fails is reported on the console and in `disk_err`. -/
theorem send_fails {off : Word} (hoff : off.toNat + 128 ≤ 2 ^ 16) (dma : Word) {s : State}
    (h : ¬StoreOk s.card s.card.curBlk) : ∃ console faults,
    send off dma s = some ((),
      { s.withCard ((s.given off dma 128).card.stored s.card.curBlk faults) with
        console := console
        diskErr := 6 }) := by
  have hgiven : ¬StoreOk (s.given off dma 128).card (s.given off dma 128).card.curBlk :=
    mt storeOk_given.mp h
  obtain ⟨e, faults, hrun, hneg, hmin⟩ := store_fails hgiven
  obtain ⟨console, hreport⟩ := report_run (BitVec.ofInt 8 e)
    { s.withCard ((s.given off dma 128).card.stored s.card.curBlk faults) with
      diskErr := BitVec.ofInt 8 e }
  refine ⟨console, faults, Eq.trans ?_ hreport⟩
  rw [send, Prog.bind_of_run (send_loop hoff dma s), onCard_bind_run, flush_run, hrun, setDiskErr,
    Prog.modify_bind_run, Prog.get_bind_run, Prog.ite_run, if_pos (ofInt_ne_zero hneg hmin)]
  rfl

theorem diskRead_raw {s : State} (h : s.sdFat = 0) (fuel : Nat) (blk : ULong) :
    diskRead fuel blk s = some ((), s.withCard (Sdcard.fetch blk s.card).2) := by
  rw [diskRead, Prog.get_bind_run, Prog.ite_run, if_pos h]
  exact Prog.discard_eq_some.mpr ⟨_, rfl⟩

/-- A sector does not cross the end of its block. -/
theorem off_le (s : State) : s.off.toNat + 128 ≤ 512 := by
  have hmul (a : ULong) : (a * 128#64).toNat % 128 = 0 := by
    rw [BitVec.toNat_mul, show (128#64).toNat = 128 from rfl]
    omega
  have hadd (a : ULong) : (a * 128#64 + 256256#64).toNat % 128 = 0 := by
    have := hmul a
    rw [BitVec.toNat_add, show (256256#64).toNat = 256256 from rfl]
    omega
  have hpos : s.pos.toNat % 128 = 0 := by
    rw [State.pos]
    split
    · exact hadd _
    · rw [BitVec.add_zero]
      exact hmul _
  rw [off_lt]
  omega

theorem blk_aligned (s : State) : s.blk &&& 0x1ff#64 = 0#64 := by
  rw [aligned_iff, State.blk, toNat_and_mask]
  omega

/-- The command on port 13 once its block has been asked for. -/
theorem command_run {s t : State} {fuel : Nat} (hdrive : s.drive = 0 ∨ s.drive = 8)
    (hread : diskRead fuel s.blk s = some ((), t)) (val : Byte) :
    command fuel val s = if val = 0 then receive s.off s.dma t
      else if val = 1 ∧ s.wrPrt = 0 then send s.off s.dma t
      else setDiskErr 7 t := by
  rw [command, Prog.get_bind_run, Prog.ite_run, if_pos hdrive, Prog.bind_of_run hread]
  simp only [Prog.ite_run]

/-! ## A fetch that fails -/

/-- What a write flushes: RAM in the sector, elsewhere the block asked for
as far as it has come, and what the buffer has held before. -/
def State.pending (s : State) : Nat → Byte :=
  splice (splice s.card.buffer (s.card.image.block s.blk) 0 (s.card.delivered s.blk))
    (fun i => s.sram (s.dma + BitVec.ofNat 16 i)) s.off.toNat 128

/-- The first `n` bytes of what a write flushes are on the card already,
in the block fetched before. -/
def State.InPlace (s : State) (n : Nat) : Prop :=
  n = 0 ∨ s.card.curBlk.toNat + n ≤ s.card.image.len
    ∧ ∀ i < n, s.card.image.byte (s.card.curBlk.toNat + i) = s.pending i

/-- After a fetch that failed, a store of the block fetched before it
would be refused and do no harm: the card is not open for writing, or that
block cannot be addressed, or the next call fails as well, before it has
written anything new. -/
def StoreRefused (s : State) : Prop :=
  s.card.fp ≠ some true ∨ s.card.curBlk &&& 0x1ff#64 ≠ 0#64 ∨ 2 ^ 63 ≤ s.card.curBlk.toNat
    ∨ s.card.faults.tail.headD .none = .seek
    ∨ ∃ n, s.card.faults.tail.headD .none = .short n ∧ s.InPlace n

/-- The card after a fetch of a block that failed. -/
theorem fetch_failed {card : Card} {blkAddr : ULong} (haligned : blkAddr &&& 0x1ff#64 = 0#64)
    (h : ¬FetchOk card blkAddr) : ∃ count,
    (Sdcard.fetch blkAddr card).2 = card.cut blkAddr count
      (if card.fp = none then card.faults else card.faults.tail) := by
  rw [fetch_run]
  split_ifs with hfp hoff hseek hwhole
  · exact ⟨0, (card.cut_zero blkAddr card.faults).symm⟩
  · exact absurd haligned hoff
  · exact ⟨0, rfl⟩
  · exact ⟨_, rfl⟩
  · exact absurd ⟨hfp, haligned, hseek, not_not.mp hwhole⟩ h

/-- The card once a write has asked for its block, in vain, and filled the
buffer. -/
theorem spares_iff {s : State} (h : ¬FetchOk s.card s.blk) :
    ((s.withCard (Sdcard.fetch s.blk s.card).2).given s.off s.dma 128).card.Spares
        (Sdcard.fetch s.blk s.card).2.curBlk
      ↔ StoreRefused s := by
  obtain ⟨count, hrun⟩ := fetch_failed (blk_aligned s) h
  have hbuffer : ((s.withCard (Sdcard.fetch s.blk s.card).2).given s.off s.dma 128).card.buffer
      = s.pending := by
    rw [State.pending, ← fetch_buffer]
    rfl
  generalize hcard : ((s.withCard (Sdcard.fetch s.blk s.card).2).given s.off s.dma 128).card = card
    at hbuffer
  obtain ⟨himage, hfp, hfault⟩ : card.image = s.card.image ∧ card.fp = s.card.fp
      ∧ (s.card.fp = some true → card.fault = s.card.faults.tail.headD .none) := by
    subst hcard
    rw [hrun]
    refine ⟨rfl, rfl, fun hfp => ?_⟩
    rw [if_neg (by rw [hfp]; decide)]
    rfl
  have hcur : (Sdcard.fetch s.blk s.card).2.curBlk = s.card.curBlk := by rw [hrun]; rfl
  rw [hcur, StoreRefused]
  by_cases hready : s.card.fp = some true ∧ s.card.curBlk &&& 0x1ff#64 = 0#64
      ∧ s.card.curBlk.toNat < 2 ^ 63
  case neg =>
    have hnone : card.accepted s.card.curBlk = 0 := by
      rw [Card.accepted, hfp, if_neg hready]
    refine iff_of_true (spares_of_none hnone) ?_
    by_contra hno
    simp only [not_or, not_not, not_le] at hno
    exact hready ⟨hno.1, hno.2.1, hno.2.2.1⟩
  case pos =>
    obtain ⟨hopen, haligned, hnear⟩ := hready
    have haccepted : card.accepted s.card.curBlk = card.fault.accepts := by
      rw [Card.accepted, hfp, if_pos ⟨hopen, haligned, hnear⟩]
    rw [Card.Spares, storeOk_iff_accepted, haccepted, himage, hbuffer, ← hfault hopen,
      fwriteFirst_eq_iff]
    simp only [hopen, haligned, ne_eq, not_true_eq_false, false_or, not_le.mpr hnear]
    cases card.fault with
    | none =>
        refine iff_of_false (fun hspares => hspares.1 rfl) ?_
        rintro (hno | ⟨n, hno, -⟩)
        · exact Fault.noConfusion hno
        · exact Fault.noConfusion hno
    | seek => exact iff_of_true ⟨by decide, .inl rfl⟩ (.inl rfl)
    | short n =>
        constructor
        · rintro ⟨-, hplace⟩
          exact .inr ⟨n, rfl, hplace⟩
        · rintro (hno | ⟨m, hm, hplace⟩)
          · exact Fault.noConfusion hno
          · obtain rfl := Fault.short.inj hm
            exact ⟨n.isLt.ne, hplace⟩

/-- The command has reported an error and changed neither RAM nor the
card. -/
def Contained (s s' : State) : Prop :=
  s'.diskErr ≠ 0 ∧ s'.sram = s.sram ∧ s'.card.image = s.card.image

theorem contained_of_read {s t s' : State} (hsram : t.sram = s.sram)
    (himage : t.card.image = s.card.image) : Contained t s' ↔ Contained s s' := by
  rw [Contained, Contained, hsram, himage]

theorem receive_contained (off dma : Word) (s : State) :
    ¬∃ s', receive off dma s = some ((), s') ∧ Contained s s' := by
  rw [receive_run]
  rintro ⟨s', hrun, herr, -⟩
  cases hrun
  exact herr rfl

theorem send_contained {off : Word} (hoff : off.toNat + 128 ≤ 2 ^ 16) (dma : Word) (s : State) :
    (∃ s', send off dma s = some ((), s') ∧ Contained s s')
      ↔ (s.given off dma 128).card.Spares s.card.curBlk := by
  by_cases hok : StoreOk s.card s.card.curBlk
  · refine iff_of_false ?_ fun hspares => hspares.1 (storeOk_given.mpr hok)
    rintro ⟨s', hrun, herr, -⟩
    rw [send_ok hoff dma hok] at hrun
    cases hrun
    exact herr rfl
  · obtain ⟨console, faults, hrun⟩ := send_fails hoff dma hok
    constructor
    · rintro ⟨s', hrun', -, -, himage⟩
      cases hrun.symm.trans hrun'
      exact ⟨mt storeOk_given.mp hok, himage⟩
    · intro hspares
      exact ⟨_, hrun, (by decide : (6 : Byte) ≠ 0), rfl, hspares.2⟩

/-- Where the read at its beginning has left RAM and image alone, a command
is contained if it is a write that is stopped. -/
theorem out_contained_iff {fuel : Nat} {s t : State} {val : Byte}
    (hdrive : s.drive = 0 ∨ s.drive = 8) (hval : val = 0 ∨ val = 1)
    (hread : diskRead fuel s.blk s = some ((), t)) (hsram : t.sram = s.sram)
    (himage : t.card.image = s.card.image) :
    (∃ s', out fuel 13 val s = some ((), s') ∧ Contained s s')
      ↔ val = 1 ∧ (s.wrPrt ≠ 0 ∨ (t.given s.off s.dma 128).card.Spares t.card.curBlk) := by
  rw [show out fuel 13 val = command fuel val from rfl, command_run hdrive hread val]
  simp only [← contained_of_read hsram himage]
  rcases hval with rfl | rfl
  · rw [if_pos rfl]
    constructor
    · intro h
      exact absurd h (receive_contained _ _ _)
    · rintro ⟨hno, -⟩
      exact absurd hno (by decide)
  · rw [if_neg (by decide)]
    by_cases hwp : s.wrPrt = 0
    · rw [if_pos ⟨rfl, hwp⟩, send_contained ((off_le s).trans (by decide))]
      constructor
      · intro hno
        exact ⟨rfl, .inr hno⟩
      · rintro ⟨-, hno | hno⟩
        · exact absurd hwp hno
        · exact hno
    · rw [if_neg fun h => hwp h.2]
      constructor
      · intro _
        exact ⟨rfl, .inl hwp⟩
      · intro _
        exact ⟨_, rfl, (by decide : (7 : Byte) ≠ 0), rfl, rfl⟩

/-- In raw mode a command whose fetch fails is contained if it is a write
and that is stopped for another reason. -/
theorem failed_fetch_iff (fuel : Nat) {s : State} {val : Byte} (hraw : s.sdFat = 0)
    (hdrive : s.drive = 0 ∨ s.drive = 8) (hval : val = 0 ∨ val = 1)
    (hfail : (Sdcard.fetch s.blk s.card).1 ≠ 0) :
    (∃ s', out fuel 13 val s = some ((), s') ∧ Contained s s')
      ↔ val = 1 ∧ (s.wrPrt ≠ 0 ∨ StoreRefused s) := by
  have hfail' : ¬FetchOk s.card s.blk := fun h => hfail ((fetch_iff _ _).mpr h)
  have himage := (fetch_moved s.card s.blk).image
  rw [out_contained_iff hdrive hval (diskRead_raw hraw fuel s.blk) rfl himage, withCard_card,
    spares_iff hfail']

/-- A card with one block, just read, and the last sector of drive A
addressed, which is beyond it. -/
def beyond (wrPrt : Byte) : State :=
  { State.initial ⟨⟨512, fun _ => 0⟩, some true, fun _ => 0, 0, some true, []⟩ with
    sram := fun _ => 0xe5
    track := 76
    sect := 26
    wrPrt := wrPrt }

/-- The write is stopped by the write protection. -/
theorem failed_fetch_protected :
    ∃ s', out 0 13 1 (beyond 1) = some ((), s') ∧ Contained (beyond 1) s' :=
  (failed_fetch_iff 0 rfl (.inl rfl) (.inr rfl) (by decide +kernel)).mpr ⟨rfl, .inl (by decide)⟩

/-- Without it the sector goes to the block read before, and all seems
well. -/
theorem failed_fetch_misplaced :
    (Sdcard.fetch (beyond 0).blk (beyond 0).card).1 ≠ 0
      ∧ ∃ s', out 0 13 1 (beyond 0) = some ((), s') ∧ s'.diskErr = 0
        ∧ s'.card.image.byte 128 ≠ (beyond 0).card.image.byte 128 := by
  have hstore : StoreOk (Sdcard.fetch (beyond 0).blk (beyond 0).card).2
      (Sdcard.fetch (beyond 0).blk (beyond 0).card).2.curBlk :=
    ⟨rfl, by decide +kernel, by decide +kernel, by decide +kernel⟩
  have hrun := (command_run (.inl rfl) (diskRead_raw rfl 0 (beyond 0).blk) 1).trans
    (send_ok ((off_le (beyond 0)).trans (by decide)) (beyond 0).dma hstore)
  exact ⟨by decide +kernel, _, hrun, rfl, by decide +kernel⟩

end Machine

end CpMega88
