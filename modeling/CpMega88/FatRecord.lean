import CpMega88.FatLands

/-!
# The record of the last request

`fetch_cluster` answers a request that is on record without touching the
card, so the record has to be true: the buffer must hold what the
recorded request would load (`Coherent`). It is written before the card
is read, it survives a failure, and other users of the buffer do not
reset it.

`run_coherent` says when it stays true: in every run in which the buffer
is refilled from elsewhere only while nothing is on record, and in which
every request that misses the record succeeds.
-/

namespace CpMega88

open Bytes Sdcard Splice

namespace Fat

/-! ## Coherence -/

/-- The volume with nothing on record, over a card that works. -/
def Volume.emptied (v : Volume) : Volume :=
  { v with lastCluster := 0xffff, card := { v.card with faults := [] } }

/-- The recorded request, asked again with nothing on record, succeeds
and leaves the buffer as it is. -/
def Reloads (v : Volume) : Prop :=
  ∃ fuel v', fetchCluster fuel v.lastCluster v.lastOffset v.emptied = some (0, v')
    ∧ v'.card.buffer = v.card.buffer

def Coherent (v : Volume) : Prop := v.lastCluster ≠ 0xffff → Reloads v

/-- The buffer holds the block that a request lands on. -/
def Holding (v : Volume) (c : Word) (o : ULong) : Prop :=
  v.card.fp ≠ none ∧ ∃ n blk, Lands v.toGeometry v.card.image c o n blk
    ∧ ∀ i < 512, v.card.buffer i = v.card.image.block blk i

theorem emptied_miss {v : Volume} {c : Word} (h : c ≠ 0xffff) (o : ULong) :
    ¬v.emptied.hit c o :=
  fun hhit => h hhit.1

/-- A request with nothing on record leaves a buffer if that holds the
block which the request lands on. -/
theorem emptied_iff {v : Volume} {c : Word} {o : ULong} {b : Nat → Byte} (h : c ≠ 0xffff)
    (hbeyond : ∀ i, 512 ≤ i → b i = v.card.buffer i) :
    (∃ fuel v', fetchCluster fuel c o v.emptied = some (0, v') ∧ v'.card.buffer = b)
      ↔ v.card.fp ≠ none ∧ ∃ n blk, Lands v.toGeometry v.card.image c o n blk
        ∧ ∀ i < 512, b i = v.card.image.block blk i := by
  constructor
  · rintro ⟨fuel, v', hrun, rfl⟩
    obtain ⟨n, blk, hlands, ⟨card, -, -, hblk, rfl⟩, hfp⟩ :=
      fetchCluster_lands (emptied_miss h o) hrun
    exact ⟨hfp, n, blk, hlands, hblk⟩
  · rintro ⟨hfp, n, blk, hlands, hblk⟩
    have hquiet : Quiet v.emptied.card (n + 1) := fun f hf => absurd hf List.not_mem_nil
    obtain ⟨v', hrun, card, ⟨b', k, fs, hkept, rfl⟩, -, hbuf, rfl⟩ :=
      fetchCluster_ok (emptied_miss h o) hlands hfp hquiet (Nat.lt_succ_self n)
    refine ⟨n + 1, _, hrun, funext fun i => ?_⟩
    by_cases hi : i < 512
    · exact (hbuf i hi).trans (hblk i hi).symm
    · exact (hkept i (not_lt.mp hi)).trans (hbeyond i (not_lt.mp hi)).symm

theorem reloads_iff {v : Volume} (h : v.lastCluster ≠ 0xffff) :
    Reloads v ↔ Holding v v.lastCluster v.lastOffset :=
  emptied_iff h fun _ _ => rfl

theorem coherent_of_holding {v : Volume} (h : Holding v v.lastCluster v.lastOffset) : Coherent v :=
  fun hne => (reloads_iff hne).mpr h

theorem coherent_of_empty {v : Volume} (h : v.lastCluster = 0xffff) : Coherent v :=
  fun hne => absurd h hne

/-! ## Requests -/

/-- More fuel changes nothing. -/
theorem walk_mono {fuel fuel' : Nat} (hle : fuel ≤ fuel') {c : Word} {o : ULong} {v : Volume}
    {r : Except Int (Word × ULong) × Volume} (h : walk fuel c o v = some r) :
    walk fuel' c o v = some r := by
  induction fuel generalizing fuel' c o v with
  | zero => cases (Prog.failure_run v).symm.trans h
  | succ fuel ih =>
      obtain ⟨fuel', rfl⟩ := Nat.exists_eq_succ_of_ne_zero (by omega : fuel' ≠ 0)
      rw [walk_run] at h ⊢
      split_ifs at h ⊢ with hgo hneg hlink
      · exact h
      · exact h
      · exact ih (Nat.le_of_succ_le_succ hle) h
      · exact h

theorem fetchCluster_mono {fuel fuel' : Nat} (hle : fuel ≤ fuel') {c : Word} {o : ULong}
    {v : Volume} {r : Int × Volume} (h : fetchCluster fuel c o v = some r) :
    fetchCluster fuel' c o v = some r := by
  by_cases hhit : v.hit c o
  · rw [fetchCluster_hit hhit] at h ⊢
    exact h
  · by_cases hc : c = 0
    · subst hc
      rw [fetchCluster_root hhit] at h ⊢
      exact h
    · rw [fetchCluster_data hhit hc] at h ⊢
      obtain ⟨w, u, hwalk, hrest⟩ := Prog.bind_eq_some.mp h
      rw [Prog.bind_of_run (walk_mono hle hwalk)]
      exact hrest

/-- A request that the record answers, that is for the cluster number
which marks the empty record, or whose landing the card serves. -/
def RequestSafe (v : Volume) (c : Word) (o : ULong) : Prop :=
  v.hit c o ∨ c = 0xffff ∨ v.card.fp ≠ none
    ∧ ∃ n blk, Lands v.toGeometry v.card.image c o n blk ∧ Quiet v.card (n + 1)

theorem fetched_holding {v v' : Volume} {c : Word} {o blk : ULong} {n : Nat}
    (hlands : Lands v.toGeometry v.card.image c o n blk) (hfp : v.card.fp ≠ none)
    (h : Fetched v c o blk v') : Holding v' v'.lastCluster v'.lastOffset := by
  obtain ⟨card, hmoved, -, hbuf, rfl⟩ := h
  refine ⟨fun h => hfp (hmoved.fp.symm.trans h), n, blk, ?_, fun i hi => ?_⟩
  · exact hmoved.image.symm ▸ hlands
  · exact (hbuf i hi).trans (by rw [← hmoved.image]; rfl)

theorem request_coherent {fuel : Nat} {v v' : Volume} {c : Word} {o : ULong} {r : Int}
    (h : Coherent v) (hsafe : RequestSafe v c o) (hrun : fetchCluster fuel c o v = some (r, v')) :
    Coherent v' := by
  by_cases hhit : v.hit c o
  · rw [fetchCluster_hit hhit] at hrun
    cases hrun
    exact h
  · rcases hsafe with hhit' | rfl | ⟨hfp, n, blk, hlands, hquiet⟩
    · exact absurd hhit' hhit
    · obtain ⟨card, -, rfl⟩ := fetchCluster_moves hhit hrun
      exact coherent_of_empty rfl
    · obtain ⟨v'', hok, hfetched⟩ := fetchCluster_ok hhit hlands hfp hquiet (Nat.lt_succ_self n)
      have hsame := (fetchCluster_mono (Nat.le_max_left fuel (n + 1)) hrun).symm.trans
        (fetchCluster_mono (Nat.le_max_right fuel (n + 1)) hok)
      cases hsame
      exact coherent_of_holding (fetched_holding hlands hfp hfetched)

/-! ## Operations -/

/-- A call into the file system, a fetch by another user of the card, or
the reset, which closes and reopens the card. -/
inductive Op where
  | init
  | rewind
  | next
  | chdir
  | openFile
  | seek (pos : ULong)
  | read
  | fetch (blkAddr : ULong)
  | reopen

def Op.run (fuel : Nat) : Op → FatM Unit
  | .init => discard fatInit
  | .rewind => fatRewind
  | .next => discard (fatNext fuel)
  | .chdir => discard fatChdir
  | .openFile => discard fatOpen
  | .seek pos => discard (fatSeek pos)
  | .read => discard (fatRead fuel)
  | .fetch blkAddr => discard (onCard (Sdcard.fetch blkAddr))
  | .reopen => onCard do
    Sdcard.init
    discard openCard

/-- The entry at `dir_offset` is one that `fat_next` passes over. -/
def Volume.unused (v : Volume) : Prop :=
  v.card.buffer v.entryOff.toNat = 0 ∨ v.card.buffer v.entryOff.toNat &&& 0x80#8 ≠ 0
    ∨ v.card.buffer (v.entryOff + 11).toNat = 0x0f#8

instance (v : Volume) : Decidable v.unused := inferInstanceAs (Decidable (_ ∨ _ ∨ _))

/-- Every request of the loop of `fat_next`, up to the first entry it
returns, is safe in the state that it finds. -/
def NextSafe (fuel : Nat) : Nat → Volume → Prop
  | 0, _ => True
  | left + 1, v => RequestSafe v v.dirCluster (v.dirOffset.setWidth 64 <<< 5)
    ∧ ∀ r v', fetchCluster fuel v.dirCluster (v.dirOffset.setWidth 64 <<< 5) v = some (r, v') →
      0 ≤ r → v'.unused → NextSafe fuel left { v' with dirOffset := v'.dirOffset + 1 }

/-- A fetch would leave the buffer as it is. -/
def Untouched (card : Card) (blkAddr : ULong) : Prop :=
  ∀ i < card.delivered blkAddr, card.image.block blkAddr i = card.buffer i

/-- The buffer is refilled from elsewhere only while nothing is on
record, and every request that misses the record can be served. -/
def Op.Safe (fuel : Nat) : Op → Volume → Prop
  | .init, v => v.lastCluster = 0xffff ∨ ¬FetchOk v.card 0 ∧ Untouched v.card 0
  | .next, v => NextSafe fuel (v.dirEntries.toNat - (v.dirOffset + 1).toNat)
    { v with dirOffset := v.dirOffset + 1 }
  | .read, v => RequestSafe v v.fileCluster v.fileOffset
  | .fetch blkAddr, v => v.lastCluster = 0xffff ∨ Untouched v.card blkAddr
  | .reopen, v => v.lastCluster = 0xffff ∨ v.card.access ≠ none
  | _, _ => True

/-! ## What each operation keeps -/

/-- The parts of the state that coherence is about. -/
def SameRecord (v v' : Volume) : Prop :=
  v'.toGeometry = v.toGeometry ∧ v'.card = v.card ∧ v'.lastCluster = v.lastCluster
    ∧ v'.lastOffset = v.lastOffset

instance : Std.Refl SameRecord := ⟨fun _ => ⟨rfl, rfl, rfl, rfl⟩⟩

instance : IsTrans Volume SameRecord where
  trans _ _ _ h h' := ⟨h'.1.trans h.1, h'.2.1.trans h.2.1, h'.2.2.1.trans h.2.2.1,
    h'.2.2.2.trans h.2.2.2⟩

theorem SameRecord.coherent {v v' : Volume} (h : SameRecord v v') (hv : Coherent v) :
    Coherent v' := by
  obtain ⟨hg, hcard, hlast, hoff⟩ := h
  intro hne
  rw [reloads_iff hne]
  have := (reloads_iff (hlast ▸ hne)).mp (hv (hlast ▸ hne))
  rw [Holding] at this ⊢
  rw [hg, hcard, hlast, hoff]
  exact this

theorem read2_sameRecord (off : Word) : Prog.Keeps SameRecord (read2 off) := by
  rintro v a v' h
  cases h
  exact ⟨rfl, rfl, rfl, rfl⟩

theorem read4_sameRecord (off : Word) : Prog.Keeps SameRecord (read4 off) := by
  rintro v a v' h
  cases h
  exact ⟨rfl, rfl, rfl, rfl⟩

theorem fatRewind_sameRecord : Prog.Keeps SameRecord fatRewind :=
  .modify fun _ => ⟨rfl, rfl, rfl, rfl⟩

theorem fatChdir_sameRecord : Prog.Keeps SameRecord fatChdir :=
  .bind .get fun _ => .bind (read2_sameRecord _) fun _ =>
    .bind (.modify fun _ => ⟨rfl, rfl, rfl, rfl⟩) fun _ => .bind fatRewind_sameRecord fun _ =>
      .pure 0

theorem fatSeek_sameRecord (pos : ULong) : Prog.Keeps SameRecord (fatSeek pos) :=
  .bind .get fun _ => .ite (.pure _) (.bind (.modify fun _ => ⟨rfl, rfl, rfl, rfl⟩) fun _ =>
    .pure 0)

theorem fatOpen_sameRecord : Prog.Keeps SameRecord fatOpen :=
  .bind .get fun _ => .bind (read2_sameRecord _) fun _ =>
    .bind (.modify fun _ => ⟨rfl, rfl, rfl, rfl⟩) fun _ =>
      .bind (.bind .get fun _ => read4_sameRecord _) fun _ =>
        .bind (.modify fun _ => ⟨rfl, rfl, rfl, rfl⟩) fun _ => fatSeek_sameRecord 0

/-! ## The loop of `fat_next` -/

theorem fetchCluster_dirOffset {fuel : Nat} {c : Word} {o : ULong} {v v' : Volume} {r : Int}
    (h : fetchCluster fuel c o v = some (r, v')) : v'.dirOffset = v.dirOffset := by
  by_cases hhit : v.hit c o
  · rw [fetchCluster_hit hhit] at h
    cases h
    rfl
  · obtain ⟨card, -, rfl⟩ := fetchCluster_moves hhit h
    rfl

theorem nextLoop_run (fuel left : Nat) (v : Volume) :
    nextLoop fuel (left + 1) v
      = (fetchCluster fuel v.dirCluster (v.dirOffset.setWidth 64 <<< 5) v).bind fun r =>
        if r.1 < 0 then some (-2, r.2)
        else if r.2.unused then nextLoop fuel left { r.2 with dirOffset := r.2.dirOffset + 1 }
        else some (v.dirOffset.toNat, r.2) := by
  rw [nextLoop, Prog.get_bind_run, Prog.bind_run]
  cases hrun : fetchCluster fuel v.dirCluster (v.dirOffset.setWidth 64 <<< 5) v with
  | none => rfl
  | some r =>
      have hentry : v.entryOff = r.2.entryOff := by
        rw [Volume.entryOff, Volume.entryOff, fetchCluster_dirOffset hrun]
      simp only [Option.bind_some, Prog.ite_run, onCard_bind_run, fatAttr, bind_assoc,
        Prog.get_bind_run, Prog.modify_bind_run, Prog.pure_run, hentry]
      rfl

theorem next_coherent {fuel left : Nat} {v v' : Volume} {r : Int} (h : Coherent v)
    (hsafe : NextSafe fuel left v) (hrun : nextLoop fuel left v = some (r, v')) : Coherent v' := by
  induction left generalizing v with
  | zero =>
      cases hrun
      exact h
  | succ left ih =>
      rw [nextLoop_run] at hrun
      obtain ⟨⟨r', u⟩, hfetch, hrest⟩ := Option.bind_eq_some_iff.mp hrun
      have hu := request_coherent h hsafe.1 hfetch
      split_ifs at hrest with hneg hunused
      · cases hrest
        exact hu
      · have hmoved : SameRecord u { u with dirOffset := u.dirOffset + 1 } := ⟨rfl, rfl, rfl, rfl⟩
        exact ih (hmoved.coherent hu) (hsafe.2 r' u hfetch (not_lt.mp hneg) hunused) hrest
      · cases hrest
        exact hu

/-! ## Other users of the buffer -/

theorem untouched_buffer {card : Card} {blkAddr : ULong} (h : Untouched card blkAddr) :
    (Sdcard.fetch blkAddr card).2.buffer = card.buffer := by
  rw [fetch_buffer]
  funext i
  by_cases hi : i < card.delivered blkAddr
  · rw [splice_in (Nat.zero_le i) (by omega)]
    exact h i hi
  · exact splice_out (by omega)

theorem fetch_coherent {v : Volume} (h : Coherent v) {blkAddr : ULong}
    (hsafe : v.lastCluster = 0xffff ∨ Untouched v.card blkAddr) :
    Coherent (v.withCard (Sdcard.fetch blkAddr v.card).2) := by
  rcases hsafe with hempty | huntouched
  · exact coherent_of_empty hempty
  · intro hne
    have hne' : v.lastCluster ≠ 0xffff := hne
    have hmoved := fetch_moved v.card blkAddr
    obtain ⟨hfp, n, blk, hlands, hbuf⟩ := (reloads_iff hne').mp (h hne')
    refine (reloads_iff hne).mpr ⟨fun hnone => hfp (hmoved.fp.symm.trans hnone), n, blk, ?_,
      fun i hi => ?_⟩
    · exact hmoved.image.symm ▸ hlands
    · show (Sdcard.fetch blkAddr v.card).2.buffer i
        = (Sdcard.fetch blkAddr v.card).2.image.block blk i
      rw [untouched_buffer huntouched, hmoved.image]
      exact hbuf i hi

/-- Four bytes of the buffer are a number of 32 bits. -/
theorem read4_bind_keeps {R : Volume → Volume → Prop} {off : Word} {k : ULong → FatM Int}
    (hk : ∀ a : ULong, a.toNat < 2 ^ 32 → Prog.Keeps R (k a)) :
    Prog.Keeps R (read4 off >>= k) := by
  intro v r v' h
  obtain ⟨a, u, hread, hrest⟩ := Prog.bind_eq_some.mp h
  cases hread
  refine hk _ ?_ _ _ _ hrest
  have hhi := (word (v.card.buffer (off + 2 + 1).toNat) (v.card.buffer (off + 2).toNat)).isLt
  have hlo := (word (v.card.buffer (off + 1).toNat) (v.card.buffer off.toNat)).isLt
  refine (toNat_words _ _).trans_lt ?_
  omega

section Init

variable {R : Volume → Volume → Prop} [Std.Refl R] [IsTrans Volume R]

omit [IsTrans Volume R] in
theorem read_keeps (off : Word) : Prog.Keeps R (onCard (Sdcard.read off)) := by
  rintro v a v' h
  cases h
  exact Std.Refl.refl v

theorem read2_keeps (off : Word) : Prog.Keeps R (read2 off) :=
  .bind (read_keeps _) fun _ => .bind (read_keeps _) fun _ => .pure _

theorem signature_keeps : Prog.Keeps R signature :=
  .bind (read_keeps _) fun _ => .bind (read_keeps _) fun _ => .pure _

/-- What `fat_init` keeps: it reads the card, and sets the geometry and
the place in the directory. -/
theorem fatInit_keeps (hfetch : ∀ blk, Prog.Keeps R (onCard (Sdcard.fetch blk)))
    (hfirst : ∀ v (first : ULong), first.toNat < 2 ^ 32 → R v { v with fatFirstSect := first })
    (hgeometry : ∀ v (first : ULong) (reserved fatSectors entries size : Word) (spc fats : Byte),
      first.toNat < 2 ^ 32 → spc ≠ 0 → R v { v with
        reservedSectors := reserved
        sectorsPerCluster := spc
        dirEntries := entries
        dirSector := first + reserved.setWidth 64 + fatSectors.setWidth 64 * fats.setWidth 64
        dirSize := size })
    (hdir : ∀ v (cluster offset : Word),
      R v { v with dirCluster := cluster, dirOffset := offset }) :
    Prog.Keeps R fatInit := by
  refine .bind (hfetch _) fun _ => .ite (.pure _) (.bind (read_keeps _) fun _ => ?_)
  refine .bind signature_keeps fun _ => .ite (.pure _) (.ite (.pure _) ?_)
  refine read4_bind_keeps fun first hlt => .bind (.modify fun v => hfirst v first hlt) fun _ => ?_
  refine .bind (hfetch _) fun _ => .ite (.pure _) (.bind signature_keeps fun _ => ?_)
  refine .ite (.pure _) (.bind (read2_keeps _) fun _ => .bind (read_keeps _) fun _ => ?_)
  refine .bind (read2_keeps _) fun _ => .bind (read2_keeps _) fun _ => ?_
  refine .bind (read_keeps _) fun spc => .bind (read2_keeps _) fun _ => ?_
  refine .cases (fun _ => .failure) fun hspc => ?_
  refine .bind (.modify fun v => hgeometry v _ _ _ _ _ _ _ hlt hspc) fun _ => .ite (.pure _) ?_
  exact .bind (.modify fun v => hdir v 0 v.dirOffset) fun _ =>
    .bind (.modify fun v => hdir v v.dirCluster 0xffff) fun _ => .pure _

end Init

/-- The record names the same cluster. -/
def SameLast (v v' : Volume) : Prop := v'.lastCluster = v.lastCluster

instance : Std.Refl SameLast := ⟨fun _ => rfl⟩

instance : IsTrans Volume SameLast := ⟨fun _ _ _ h h' => h'.trans h⟩

theorem fatInit_sameLast : Prog.Keeps SameLast fatInit := by
  have hcard {α : Type} (x : CardM α) : Prog.Keeps SameLast (onCard x) := by
    rintro v a v' h
    cases h
    rfl
  exact fatInit_keeps (fun _ => hcard _) (fun _ _ _ => rfl)
    (fun _ _ _ _ _ _ _ _ _ _ => rfl) fun _ _ _ => rfl

theorem init_coherent {v v' : Volume} {r : Int} (h : Coherent v)
    (hsafe : v.lastCluster = 0xffff ∨ ¬FetchOk v.card 0 ∧ Untouched v.card 0)
    (hrun : fatInit v = some (r, v')) : Coherent v' := by
  rcases hsafe with hempty | ⟨hfail, huntouched⟩
  · exact coherent_of_empty ((fatInit_sameLast v r v' hrun).trans hempty)
  · have hneg : (Sdcard.fetch 0 v.card).1 < 0 := by
      by_contra hpos
      exact hfail (fetchOk_of_not_neg hpos)
    rw [fatInit, onCard_bind_run, Prog.ite_run, if_pos hneg] at hrun
    cases hrun
    exact fetch_coherent h (.inr huntouched)

theorem reopen_coherent {v : Volume} (h : Coherent v)
    (hsafe : v.lastCluster = 0xffff ∨ v.card.access ≠ none) :
    Coherent (v.withCard { v.card with curBlk := 0, fp := v.card.access }) := by
  rcases hsafe with hempty | haccess
  · exact coherent_of_empty hempty
  · intro hne
    have hne' : v.lastCluster ≠ 0xffff := hne
    obtain ⟨-, n, blk, hlands, hbuf⟩ := (reloads_iff hne').mp (h hne')
    exact (reloads_iff hne).mpr ⟨haccess, n, blk, hlands, hbuf⟩

/-! ## Runs -/

theorem op_coherent (fuel : Nat) (op : Op) (v v' : Volume) (h : Coherent v)
    (hsafe : op.Safe fuel v) (hrun : op.run fuel v = some ((), v')) : Coherent v' := by
  cases op with
  | init =>
      obtain ⟨r, hinit⟩ := Prog.discard_eq_some.mp hrun
      exact init_coherent h hsafe hinit
  | rewind => exact (fatRewind_sameRecord v _ v' hrun).coherent h
  | next =>
      obtain ⟨r, hnext⟩ := Prog.discard_eq_some.mp hrun
      have hmoved : SameRecord v { v with dirOffset := v.dirOffset + 1 } := ⟨rfl, rfl, rfl, rfl⟩
      exact next_coherent (hmoved.coherent h) hsafe hnext
  | chdir =>
      obtain ⟨r, hchdir⟩ := Prog.discard_eq_some.mp hrun
      exact (fatChdir_sameRecord v r v' hchdir).coherent h
  | openFile =>
      obtain ⟨r, hopen⟩ := Prog.discard_eq_some.mp hrun
      exact (fatOpen_sameRecord v r v' hopen).coherent h
  | seek pos =>
      obtain ⟨r, hseek⟩ := Prog.discard_eq_some.mp hrun
      exact (fatSeek_sameRecord pos v r v' hseek).coherent h
  | read =>
      obtain ⟨r, hread⟩ := Prog.discard_eq_some.mp hrun
      exact request_coherent h hsafe hread
  | fetch blkAddr =>
      obtain ⟨r, hfetch⟩ := Prog.discard_eq_some.mp hrun
      cases hfetch
      exact fetch_coherent h hsafe
  | reopen =>
      cases hrun
      exact reopen_coherent h hsafe

/-- From a coherent state, such as the initial one, every state that a
run of safe operations reaches is coherent. -/
theorem run_coherent (fuel : Nat) (ops : List Op) (v v' : Volume) (h : Coherent v)
    (hsafe : Prog.AlongAll (Op.run fuel) (Op.Safe fuel) ops v)
    (hrun : Prog.runAll (Op.run fuel) ops v = some ((), v')) : Coherent v' :=
  Prog.runAll_invariant (op_coherent fuel) h hsafe hrun

/-- A FAT16 partition from sector 1 on: one sector per cluster, one FAT
of one sector, and sixteen root entries, all of them free. -/
def blankImage : Image where
  len := 8 * 512
  byte := fun i => match i with
    | 450 => 4
    | 454 => 1
    | 510 => 0x55
    | 511 => 0xaa
    | 524 => 2
    | 525 => 1
    | 526 => 1
    | 528 => 1
    | 529 => 16
    | 534 => 1
    | 1022 => 0x55
    | 1023 => 0xaa
    | _ => 0

def blankCard (faults : List Fault) : Card where
  image := blankImage
  access := some true
  buffer := fun _ => 0
  curBlk := 0
  fp := some true
  faults := faults

/-- The buffer after a fetch by another user of the card. -/
def refilled : Volume :=
  (Volume.initial (blankCard [])).withCard ((blankCard []).loaded 512)

/-- Then a read has gone on record. -/
def readBack : Volume :=
  { refilled with card := refilled.card.loaded 0, lastCluster := 0, lastOffset := 0 }

/-- With nothing on record the buffer is refilled from elsewhere; a read
succeeds and goes on record, the next one is answered by it, and the card
is opened again. -/
theorem run_coherent_read : ∃ v', Prog.runAll (Op.run 1)
        [.fetch 512, .read, .rewind, .read, .reopen] (Volume.initial (blankCard []))
      = some ((), v') ∧ v'.lastCluster = 0 ∧ Coherent v' := by
  have hfetch : Op.run 1 (.fetch 512) (Volume.initial (blankCard [])) = some ((), refilled) := rfl
  have hread : Op.run 1 .read refilled = some ((), readBack) := rfl
  have hrewind : Op.run 1 .rewind readBack = some ((), { readBack with dirOffset := 0xffff }) := rfl
  have hagain : Op.run 1 .read { readBack with dirOffset := 0xffff }
      = some ((), { readBack with dirOffset := 0xffff }) := rfl
  have hserved : RequestSafe refilled 0 0 :=
    .inr (.inr ⟨by decide, 0, _, .root ⟨by decide, by decide, by decide⟩,
      fun f hf => absurd hf List.not_mem_nil⟩)
  have hsafe : Prog.AlongAll (Op.run 1) (Op.Safe 1) [.fetch 512, .read, .rewind, .read, .reopen]
      (Volume.initial (blankCard [])) :=
    Prog.alongAll_cons (.inl rfl) hfetch <| Prog.alongAll_cons hserved hread <|
      Prog.alongAll_cons trivial hrewind <| Prog.alongAll_cons (.inl ⟨rfl, rfl⟩) hagain
        ⟨.inr (by decide), fun _ _ => trivial⟩
  exact ⟨_, rfl, rfl, run_coherent 1 _ (Volume.initial (blankCard [])) _
    (coherent_of_empty rfl) hsafe rfl⟩

/-- The read of the root directory fails after it has gone on record: the
buffer still holds the boot sector. -/
theorem failed_next_incoherent :
    ∃ v', Prog.runAll (Op.run 1) [.init, .next]
        (Volume.initial (blankCard [.none, .none, .seek])) = some ((), v')
      ∧ v'.lastCluster ≠ 0xffff ∧ ¬Reloads v' := by
  have hrun : (Prog.runAll (Op.run 1) [.init, .next]
      (Volume.initial (blankCard [.none, .none, .seek]))).map (fun r =>
        (r.2.lastCluster, r.2.card.buffer 510,
          r.2.card.image.block (r.2.rootSector r.2.lastOffset <<< 9) 510))
      = some (0, 0x55, 0) := by
    decide +kernel
  obtain ⟨⟨_, v'⟩, hv, hproj⟩ := Option.map_eq_some_iff.mp hrun
  simp only [Prod.mk.injEq] at hproj
  obtain ⟨hlast, hbuf, hblk⟩ := hproj
  have hne : v'.lastCluster ≠ 0xffff := by rw [hlast]; decide
  refine ⟨v', hv, hne, fun hreloads => ?_⟩
  obtain ⟨-, n, blk, hlands, hsame⟩ := (reloads_iff hne).mp hreloads
  have hholds := hsame 510 (by decide)
  generalize hc : v'.lastCluster = c at hlands
  cases hlands with
  | root =>
      rw [hbuf, hblk] at hholds
      exact absurd hholds (by decide)
  | data hne' => exact hne' (hc.symm.trans hlast)

end Fat

end CpMega88
