import CpMega88.BootTests
import CpMega88.ConsoleText
import Mathlib.Data.Finset.Card

/-!
# What the card test reads

`sdc_chk` gives `sdcard_fetch` the number of a block where a byte address
is wanted, so that of its 128 blocks only the first is ever fetched; the
others are not aligned, and what they are compared with is the first again.
So the test finds no error on any card that can be read.

Errors it does report are its own: where the second reading of block 0
leaves other bytes than the first has. `reads_card_iff` says when it all
comes out right nevertheless.

A turn of either phase puts the buffer into a block of RAM
(`State.turned`). In phase 2 it goes back by the number of bytes that
differ. That ends, since a block that has been put right stays so
(`wrong`), and when it does the blocks behind it are right.
-/

namespace CpMega88

open Bytes Sdcard Splice

namespace Machine

/-! ## One byte -/

@[simp] theorem said_card (s : State) (text : List Byte) : (s.said text).card = s.card := rfl

@[simp] theorem copied_card (s : State) (addr : Word) (n : Nat) : (s.copied addr n).card = s.card :=
  rfl

theorem copied_said (s : State) (addr : Word) (n : Nat) (text : List Byte) :
    (s.said text).copied addr n = (s.copied addr n).said text := rfl

theorem copied_succ (s : State) (addr : Word) {n : Nat} (hn : n < 2 ^ 16) :
    s.copied addr (n + 1) = { s.copied addr n with
      sram := Function.update (s.copied addr n).sram (addr + BitVec.ofNat 16 n)
        (s.card.buffer (BitVec.ofNat 16 n).toNat) } := by
  rw [State.copied, blit_succ _ _ _ hn]
  rfl

/-- A byte that has not been copied yet. -/
theorem copied_ahead (s : State) (addr : Word) {n : Nat} (hn : n < 2 ^ 16) :
    (s.copied addr n).sram (addr + BitVec.ofNat 16 n) = s.sram (addr + BitVec.ofNat 16 n) := by
  have hoff : (addr + BitVec.ofNat 16 n - addr).toNat = n := by
    rw [add_sub_cancel_left]
    exact Nat.mod_eq_of_lt hn
  exact if_neg (hoff.symm ▸ lt_irrefl n)

/-- The byte is in the buffer and in RAM. -/
def Equal (s : State) (addr i : Word) : Prop := s.sram (addr + i) = s.card.buffer i.toNat

instance (s : State) (addr i : Word) : Decidable (Equal s addr i) :=
  inferInstanceAs (Decidable (_ = _))

theorem copied_equal {s : State} {addr : Word} {n : Nat} (hn : n < 2 ^ 16)
    (h : Equal s addr (BitVec.ofNat 16 n)) : s.copied addr (n + 1) = s.copied addr n := by
  rw [copied_succ s addr hn, Function.update_eq_self_iff.mpr]
  rw [copied_ahead s addr hn]
  exact h.symm

/-- What phase 2 prints about a byte that differs. -/
def different (addr : Word) (expect actual : Byte) : List Byte :=
  ascii "\r\n@" ++ (Con.hexText (hiByte addr) ++ (Con.hexText (loByte addr)
    ++ (ascii "\r\nexpect: " ++ (Con.hexText expect ++ (ascii "\r\nactual: "
      ++ (Con.hexText actual ++ ascii "\r\n"))))))

/-- After it there is no difference at the byte any more. -/
theorem sdcCompare_run (addr : Word) (s : State) {i : Nat} (hi : i < 2 ^ 16) : ∃ text,
    sdcCompare addr (BitVec.ofNat 16 i) (s.copied addr i)
      = some (decide (¬Equal s addr (BitVec.ofNat 16 i)), (s.copied addr (i + 1)).said text)
    ∧ (Equal s addr (BitVec.ofNat 16 i) → text = []) := by
  have hread : sramRead (addr + BitVec.ofNat 16 i) (s.copied addr i)
      = some (s.sram (addr + BitVec.ofNat 16 i), s.copied addr i) :=
    congrArg (fun c => some (c, s.copied addr i)) (copied_ahead s addr hi)
  rw [sdcCompare, Prog.bind_of_run hread, onCard_bind_run, Prog.ite_run]
  by_cases heq : Equal s addr (BitVec.ofNat 16 i)
  · refine ⟨[], (if_neg (not_not_intro heq)).trans ?_, fun _ => rfl⟩
    rw [copied_equal hi heq, decide_eq_false (not_not_intro heq), said_nil]
    rfl
  · refine ⟨different (addr + BitVec.ofNat 16 i) (s.sram (addr + BitVec.ofNat 16 i))
      (s.card.buffer (BitVec.ofNat 16 i).toNat), (if_pos heq).trans ?_, fun h => absurd h heq⟩
    rw [decide_eq_true heq, copied_succ s addr hi,
      Prog.bind_of_run (puts_said (by simp [ascii]) _), Prog.bind_of_run (puthex_said _ _),
      Prog.bind_of_run (puthex_said _ _), Prog.bind_of_run (puts_said (by simp [ascii]) _),
      Prog.bind_of_run (puthex_said _ _), Prog.bind_of_run (puts_said (by simp [ascii]) _),
      Prog.bind_of_run (puthex_said _ _), Prog.bind_of_run (putsln_said (by simp) _)]
    simp only [said_said, List.append_assoc, different]
    rfl

/-! ## One block -/

/-- How many bytes differ among some of a block. -/
def differing (s : State) (addr : Word) (i left : Nat) : Nat :=
  (List.range' i left).countP fun j => ¬Equal s addr (BitVec.ofNat 16 j)

theorem sdcDiffer_said (addr : Word) (s : State) {left i : Nat} (hi : i + left ≤ 2 ^ 16) :
    ∃ text, sdcDiffer addr left i (s.copied addr i)
      = some (differing s addr i left, (s.copied addr (i + left)).said text)
    ∧ (differing s addr i left = 0 → text = []) := by
  induction left generalizing i s with
  | zero => exact ⟨[], by rw [said_nil]; rfl, fun _ => rfl⟩
  | succ left ih =>
      obtain ⟨text, hcompare, hsame⟩ := sdcCompare_run addr s (i := i) (by omega)
      obtain ⟨text', hrest, hsame'⟩ := ih (s.said text) (i := i + 1) (by omega)
      have hcount : differing s addr i (left + 1) = differing (s.said text) addr (i + 1) left
          + (decide (¬Equal s addr (BitVec.ofNat 16 i))).toNat := by
        rw [differing, List.range'_succ, List.countP_cons]
        by_cases heq : Equal s addr (BitVec.ofNat 16 i) <;> simp only [heq] <;> rfl
      refine ⟨text ++ text', ?_, fun hzero => ?_⟩
      · rw [sdcDiffer, Prog.bind_of_run hcompare, ← copied_said, Prog.bind_of_run hrest,
          Prog.pure_run, hcount, copied_said, said_said, Nat.add_right_comm, Nat.add_assoc]
      · have heq : Equal s addr (BitVec.ofNat 16 i) := by
          by_contra hne
          rw [hcount, decide_eq_true hne] at hzero
          exact absurd hzero (Nat.succ_ne_zero _)
        rw [hsame heq, hsame' (by omega), List.append_nil]

/-- The block of RAM holds what is in the buffer. -/
def Same (s : State) (block : Int) : Prop := ∀ i < 512, Equal s (chkAddr block) (BitVec.ofNat 16 i)

theorem differing_zero_iff (s : State) (block : Int) :
    differing s (chkAddr block) 0 512 = 0 ↔ Same s block := by
  rw [differing, List.countP_eq_zero]
  constructor
  · intro h i hi
    have hno := h i (List.mem_range'_1.mpr ⟨Nat.zero_le i, (Nat.zero_add 512).symm ▸ hi⟩)
    rwa [decide_eq_true_iff, not_not] at hno
  · intro h i hi
    rw [decide_eq_true_iff, not_not]
    exact h i ((List.mem_range'_1.mp hi).2.trans_eq (Nat.zero_add 512))

instance (s : State) (block : Int) : Decidable (Same s block) :=
  decidable_of_iff _ (differing_zero_iff s block)

theorem differing_le (s : State) (block : Int) : differing s (chkAddr block) 0 512 ≤ 512 :=
  List.countP_le_length.trans (List.length_range' ..).le

/-- The block, fetched and put into RAM. -/
def State.turned (s : State) (block : Int) : State :=
  (s.withCard (Sdcard.fetch (BitVec.ofInt 64 block) s.card).2).copied (chkAddr block) 512

/-- How many bytes of it differ. -/
def faulty (s : State) (block : Int) : Nat :=
  differing (s.withCard (Sdcard.fetch (BitVec.ofInt 64 block) s.card).2) (chkAddr block) 0 512

theorem fetch_said (block : Int) (s : State) :
    (discard (onCard (Sdcard.fetch (BitVec.ofInt 64 block))) : MachineM PUnit) s
      = some ((), s.withCard (Sdcard.fetch (BitVec.ofInt 64 block) s.card).2) :=
  Prog.discard_eq_some.mpr ⟨_, onCard_run _ s⟩

/-- A turn of phase 1. -/
theorem sdcLoad_said (b : Nat) (s : State) : sdcLoad b s = some ((), (s.turned b).said
    (ascii "sdc test phase 1: " ++ (Con.decimals 3 (BitVec.ofNat 16 b).toNat
      ++ ascii "/127\r"))) := by
  have hfetch := fetch_said b s
  rw [BitVec.ofInt_natCast] at hfetch
  rw [sdcLoad, Prog.bind_of_run hfetch, Prog.bind_of_run (copy_run _ _ (by decide)),
    Prog.bind_of_run (puts_said (by simp [ascii]) _),
    Prog.bind_of_run (putnumU16_said (by decide) _ _), puts_said (by simp [ascii]), said_said,
    said_said, State.turned, BitVec.ofInt_natCast]
  rfl

/-- What is printed after a block in phase 2. -/
def verdict (block err : Int) : List Byte :=
  ascii "sdc test phase 2: " ++ (Con.decimals 3 (BitVec.ofInt 16 block).toNat ++ (ascii "/127"
    ++ ((if err ≠ 0 then ascii " w/ error(s) " ++ Con.decimals 5 (BitVec.ofInt 16 err).toNat
      else []) ++ ascii "\r")))

theorem onlyIf_said {c : Prop} [Decidable c] {x : MachineM Unit} {s : State} {text : List Byte}
    (h : x s = some ((), s.said text)) :
    onlyIf c x s = some ((), s.said (if c then text else [])) := by
  rw [onlyIf, Prog.ite_run, h, Prog.pure_run]
  split_ifs
  · rfl
  · rw [said_nil]

/-- A turn of phase 2. -/
theorem sdcVerify_said (fuel : Nat) {block : Int} (hblock : block < 128) (err : Int) (s : State) :
    ∃ text, sdcVerify (fuel + 1) block err s
      = sdcVerify fuel (block - faulty s block + 1) (err + faulty s block)
        ((s.turned block).said (text ++ verdict (block - faulty s block) (err + faulty s block)))
    ∧ (faulty s block = 0 → text = []) := by
  have hfetch := fetch_said block s
  obtain ⟨text, hdiffer, hsame⟩ := @sdcDiffer_said (chkAddr block)
    (s.withCard (Sdcard.fetch (BitVec.ofInt 64 block) s.card).2) 512 0 (by decide)
  have hzero (s : State) : s.copied (chkAddr block) 0 = s := by
    rw [State.copied, blit_zero]
  rw [hzero, Nat.zero_add] at hdiffer
  have herror (u : State) : (do
      puts (ascii " w/ error(s) ")
      putnumU16 (BitVec.ofInt 16 (err + faulty s block)) 5 : MachineM Unit) u
      = some ((), u.said (ascii " w/ error(s) "
        ++ Con.decimals 5 (BitVec.ofInt 16 (err + faulty s block)).toNat)) := by
    rw [Prog.bind_of_run (puts_said (by simp [ascii]) u), putnumU16_said (by decide), said_said]
    rfl
  refine ⟨text, ?_, hsame⟩
  rw [sdcVerify, Prog.ite_run, if_pos hblock, Prog.bind_of_run hfetch,
    Prog.bind_of_run hdiffer, Prog.bind_of_run (puts_said (by simp [ascii]) _),
    Prog.bind_of_run (putnumU16_said (by decide) _ _),
    Prog.bind_of_run (puts_said (by simp [ascii]) _)]
  refine (Prog.bind_of_run (onlyIf_said (herror _)) _).trans ?_
  rw [Prog.bind_of_run (puts_said (by simp [ascii]) _)]
  simp only [said_said, List.append_assoc]
  rfl

/-! ## What a turn leaves of the other blocks -/

@[simp] theorem turned_card (s : State) (block : Int) :
    (s.turned block).card = (Sdcard.fetch (BitVec.ofInt 64 block) s.card).2 := rfl

/-- Where a byte of one block stands, seen from another. -/
theorem chkAddr_sub (b c : Int) {i : Nat} (hi : i < 512) :
    (chkAddr c + BitVec.ofNat 16 i - chkAddr b).toNat % 512 = i := by
  have hsub : chkAddr c + BitVec.ofNat 16 i - chkAddr b
      = BitVec.ofInt 16 (c * 512 + i - b * 512) := by
    rw [BitVec.sub_eq_add_neg, chkAddr, chkAddr, ← BitVec.ofInt_neg, ← BitVec.ofInt_natCast,
      ← BitVec.ofInt_add, ← BitVec.ofInt_add]
    rfl
  rw [hsub, BitVec.toNat_ofInt]
  omega

theorem chkAddr_emod (b : Int) : chkAddr (b % 128) = chkAddr b := by
  apply BitVec.eq_of_toNat_eq
  rw [chkAddr, chkAddr, BitVec.toNat_ofInt, BitVec.toNat_ofInt]
  omega

theorem same_emod (s : State) (b : Int) : Same s (b % 128) ↔ Same s b := by
  rw [Same, chkAddr_emod, Same]

/-- What the bytes of a block are after a turn. -/
theorem turned_sram (s : State) (b c : Int) {i : Nat} (hi : i < 512) :
    (s.turned b).sram (chkAddr c + BitVec.ofNat 16 i)
      = if (chkAddr c + BitVec.ofNat 16 i - chkAddr b).toNat < 512
        then (s.turned b).card.buffer i else s.sram (chkAddr c + BitVec.ofNat 16 i) := by
  have hoff := chkAddr_sub b c hi
  refine ite_congr rfl (fun hlt => ?_) fun _ => rfl
  rw [Nat.mod_eq_of_lt hlt] at hoff
  simp only [hoff]
  exact congrArg _ (Nat.mod_eq_of_lt (by omega))

theorem same_turned (s : State) (b : Int) : Same (s.turned b) b := by
  intro i hi
  have hnat : (BitVec.ofNat 16 i).toNat = i := Nat.mod_eq_of_lt (by omega)
  have hin : (chkAddr b + BitVec.ofNat 16 i - chkAddr b).toNat < 512 := by
    rwa [add_sub_cancel_left, hnat]
  rw [Equal, turned_sram s b b hi, if_pos hin, hnat]

/-- A block that holds what is in the buffer stays so while that stays
the same. -/
theorem Same.turned {s : State} {b c : Int} (h : Same s c)
    (hbuf : (s.turned b).card.buffer = s.card.buffer) : Same (s.turned b) c := by
  intro i hi
  have hnat : (BitVec.ofNat 16 i).toNat = i := Nat.mod_eq_of_lt (by omega)
  have hold : s.sram (chkAddr c + BitVec.ofNat 16 i) = s.card.buffer i :=
    (h i hi).trans (by rw [hnat])
  rw [Equal, turned_sram s b c hi, hold, hbuf, hnat, ite_self]

/-- Where nothing differs nothing changes. -/
theorem copied_same {s : State} {b : Int} (h : Same s b) {n : Nat} (hn : n ≤ 512) :
    s.copied (chkAddr b) n = s := by
  induction n with
  | zero => rw [State.copied, blit_zero]
  | succ n ih => rw [copied_equal (by omega) (h n (by omega)), ih (by omega)]

theorem chkAddr_byte (c i : Nat) :
    chkAddr c + BitVec.ofNat 16 i = BitVec.ofNat 16 (c * 512 + i) := by
  rw [BitVec.ofNat_add]
  rfl

theorem mirrors_of_same {s : State} {n : Nat} (h : ∀ c : Nat, c < n → Same s c) :
    Mirrors s.sram s.card.buffer n := by
  intro a ha
  have hlt : a.toNat % 512 < 512 := Nat.mod_lt _ (by decide)
  have hnat : (BitVec.ofNat 16 (a.toNat % 512)).toNat = a.toNat % 512 :=
    Nat.mod_eq_of_lt (by omega)
  have hbyte := h (a.toNat / 512) (by omega) (a.toNat % 512) hlt
  rwa [Equal, chkAddr_byte, hnat, Nat.div_add_mod', BitVec.ofNat_toNat, BitVec.setWidth_eq]
    at hbyte

theorem mirrors_byte {sram : Mem} {buffer : Nat → Byte} (h : Mirrors sram buffer 128) {b i : Nat}
    (hb : b < 128) (hi : i < 512) : sram (BitVec.ofNat 16 (b * 512 + i)) = buffer i := by
  have hnat : (BitVec.ofNat 16 (b * 512 + i)).toNat = b * 512 + i := Nat.mod_eq_of_lt (by omega)
  have hmod : (b * 512 + i) % 512 = i := by omega
  have hbyte := h (BitVec.ofNat 16 (b * 512 + i)) (by omega)
  rwa [hnat, hmod] at hbyte

/-! ## The blocks that are wrong -/

/-- The blocks of RAM that do not hold what is in the buffer. -/
def wrong (s : State) : Finset Nat := (Finset.range 128).filter fun c => ¬Same s c

theorem mem_wrong {s : State} {c : Nat} : c ∈ wrong s ↔ c < 128 ∧ ¬Same s c := by
  rw [wrong, Finset.mem_filter, Finset.mem_range]

theorem wrong_turned_subset {s : State} {b : Int}
    (hbuf : (s.turned b).card.buffer = s.card.buffer) : wrong (s.turned b) ⊆ wrong s := by
  intro c hc
  obtain ⟨hlt, hno⟩ := mem_wrong.mp hc
  exact mem_wrong.mpr ⟨hlt, mt (fun h => h.turned hbuf) hno⟩

/-- A block that has been put right is not wrong any more. -/
theorem wrong_turned_lt {s : State} {b : Int}
    (hbuf : (s.turned b).card.buffer = s.card.buffer) (h : ¬Same s b) :
    (wrong (s.turned b)).card < (wrong s).card := by
  obtain ⟨c, hc⟩ : ∃ c : Nat, (c : Int) = b % 128 := ⟨(b % 128).toNat, by omega⟩
  have hlt : c < 128 := by omega
  have hnew : Same (s.turned b) c := by
    rw [hc, same_emod]
    exact same_turned s b
  have hold : ¬Same s c := by
    rwa [hc, same_emod]
  refine Finset.card_lt_card (Finset.ssubset_iff_of_subset (wrong_turned_subset hbuf) |>.mpr ?_)
  exact ⟨c, mem_wrong.mpr ⟨hlt, hold⟩, fun hin => (mem_wrong.mp hin).2 hnew⟩

theorem wrong_turned_card (s : State) {b : Nat} (hb : b < 128) :
    (wrong (s.turned b)).card < 128 := by
  have hsub : wrong (s.turned b) ⊆ (Finset.range 128).erase b := by
    intro c hc
    obtain ⟨hlt, hno⟩ := mem_wrong.mp hc
    refine Finset.mem_erase.mpr ⟨?_, Finset.mem_range.mpr hlt⟩
    rintro rfl
    exact hno (same_turned s c)
  refine (Finset.card_le_card hsub).trans_lt ?_
  exact (Finset.card_erase_lt_of_mem (Finset.mem_range.mpr hb)).trans_eq (Finset.card_range 128)

/-! ## What is fetched -/

/-- Only block 0 is ever read. A negative number is past what `fseek`
takes. -/
theorem fetch_other {block : Int} (hne : block ≠ 0) (hlow : -2 ^ 62 ≤ block)
    (hhigh : block < 512) (card : Card) :
    (Sdcard.fetch (BitVec.ofInt 64 block) card).2.buffer = card.buffer := by
  have hno : card.delivered (BitVec.ofInt 64 block) = 0 := by
    refine if_pos (.inr ?_)
    rcases lt_or_gt_of_ne hne with hneg | hpos
    · refine .inr (.inr ?_)
      rw [BitVec.toNat_ofInt]
      omega
    · refine .inl ?_
      rw [Ne, aligned_iff, BitVec.toNat_ofInt]
      omega
  rw [fetch_buffer, hno, splice_zero]

theorem fetch_faults (blkAddr : ULong) (card : Card) :
    (Sdcard.fetch blkAddr card).2.faults = card.faults
      ∨ (Sdcard.fetch blkAddr card).2.faults = card.faults.tail := by
  rw [fetch_run]
  split_ifs
  · exact .inl rfl
  · exact .inl rfl
  · exact .inr rfl
  · exact .inr rfl
  · exact .inr rfl

/-- The buffer holds block 0 of the image. -/
def Whole (card : Card) : Prop := ∀ i < 512, card.buffer i = card.image.byte i

/-- No seek works, for so many turns at least. -/
def Deaf (turns : Nat) (card : Card) : Prop :=
  ∃ n, turns ≤ n ∧ card.faults = List.replicate n .seek

/-- For so many turns the buffer does not change. -/
def Steady (turns : Nat) (card : Card) : Prop := Whole card ∨ Deaf turns card

theorem delivered_le (card : Card) (blkAddr : ULong) : card.delivered blkAddr ≤ 512 := by
  rw [Card.delivered]
  split_ifs
  · exact Nat.zero_le _
  · exact (freadCount_le ..).trans (min_le_left ..)

theorem fetch_whole {card : Card} (h : Whole card) :
    (Sdcard.fetch 0 card).2.buffer = card.buffer := by
  rw [fetch_buffer]
  funext i
  by_cases hi : i < card.delivered 0
  · have hcount := delivered_le card 0
    rw [splice_in (Nat.zero_le i) ((Nat.zero_add _).symm ▸ hi), h i (hi.trans_le hcount)]
    simp [Image.block]
  · exact splice_out (.inr (by omega))

theorem fetch_deaf {turns : Nat} {card : Card} (h : Deaf (turns + 1) card) (blkAddr : ULong) :
    (Sdcard.fetch blkAddr card).2.buffer = card.buffer := by
  obtain ⟨n, hn, hfaults⟩ := h
  obtain ⟨m, rfl⟩ : ∃ m, n = m + 1 := ⟨n - 1, by omega⟩
  have hfault : card.fault = .seek := by
    rw [Card.fault, hfaults]
    rfl
  have hno : card.delivered blkAddr = 0 := if_pos (.inr (.inr (.inl hfault)))
  rw [fetch_buffer, hno, splice_zero]

theorem Deaf.fetch {turns : Nat} {card : Card} (h : Deaf (turns + 1) card) (blkAddr : ULong) :
    Deaf turns (Sdcard.fetch blkAddr card).2 := by
  obtain ⟨n, hn, hfaults⟩ := h
  rcases fetch_faults blkAddr card with hnext | hnext
  · exact ⟨n, by omega, hnext.trans hfaults⟩
  · exact ⟨n - 1, by omega, by rw [hnext, hfaults, List.tail_replicate]⟩

/-- A turn on such a card. -/
theorem Steady.fetch {turns : Nat} {card : Card} (h : Steady (turns + 1) card) {block : Int}
    (hlow : -2 ^ 62 ≤ block) (hhigh : block < 512) :
    (Sdcard.fetch (BitVec.ofInt 64 block) card).2.buffer = card.buffer
      ∧ Steady turns (Sdcard.fetch (BitVec.ofInt 64 block) card).2 := by
  rcases h with hwhole | hdeaf
  · have hbuf : (Sdcard.fetch (BitVec.ofInt 64 block) card).2.buffer = card.buffer := by
      rcases eq_or_ne block 0 with rfl | hne
      · exact fetch_whole hwhole
      · exact fetch_other hne hlow hhigh card
    refine ⟨hbuf, .inl fun i hi => ?_⟩
    rw [hbuf, (fetch_moved card _).image]
    exact hwhole i hi
  · exact ⟨fetch_deaf hdeaf _, .inr (hdeaf.fetch _)⟩

/-! ## Phase 2 -/

theorem same_said (s : State) (text : List Byte) (b : Int) : Same (s.said text) b ↔ Same s b :=
  Iff.rfl

@[simp] theorem wrong_said (s : State) (text : List Byte) : wrong (s.said text) = wrong s := by
  ext c
  rw [mem_wrong, mem_wrong, same_said]

theorem faulty_zero_iff {s : State} {block : Int}
    (hbuf : (s.turned block).card.buffer = s.card.buffer) : faulty s block = 0 ↔ Same s block := by
  rw [faulty, differing_zero_iff]
  refine forall₂_congr fun i _ => ?_
  rw [turned_card] at hbuf
  rw [Equal, Equal, withCard_card, hbuf]
  rfl

/-- How far below 0 the number of the block may be: each block put right
has taken it back by a block's bytes at most. -/
def Within (s : State) (block : Int) : Prop :=
  -(512 * (128 - (wrong s).card)) ≤ block ∧ block ≤ 128

/-- The turns there are to come at most. -/
def remaining (s : State) (block : Int) : Nat := (128 - block).toNat + 512 * (wrong s).card

/-- A turn puts a block right, or goes on. -/
theorem turn_within {s : State} {block : Int} (h : Within s block) (hlt : block < 128)
    (hbuf : (s.turned block).card.buffer = s.card.buffer) :
    Within (s.turned block) (block - faulty s block + 1)
      ∧ remaining (s.turned block) (block - faulty s block + 1) < remaining s block := by
  have hle : faulty s block ≤ 512 := differing_le _ _
  obtain ⟨hlow, hhigh⟩ := h
  rw [Within, remaining, remaining]
  by_cases hsame : Same s block
  · have hzero := (faulty_zero_iff hbuf).mpr hsame
    have hcard := Finset.card_le_card (wrong_turned_subset hbuf)
    omega
  · have hpos := mt (faulty_zero_iff hbuf).mp hsame
    have hcard := wrong_turned_lt hbuf hsame
    omega

/-- What phase 2 leaves when it ends. -/
structure Verified (s t : State) : Prop where
  buffer : t.card.buffer = s.card.buffer
  same : ∀ c : Nat, c < 128 → Same t c
  said : ∃ text, t.console = s.console.said text

/-- While the buffer does not change it ends, with all of RAM right. -/
theorem sdcVerify_steady {fuel : Nat} {block err : Int} {s : State}
    (hsteady : Steady fuel s.card) (hwithin : Within s block)
    (hsame : ∀ c : Nat, c < block → Same s c) :
    (remaining s block < fuel → ∃ t, sdcVerify fuel block err s = some ((), t))
      ∧ ∀ t, sdcVerify fuel block err s = some ((), t) → Verified s t := by
  induction fuel generalizing block err s with
  | zero => exact ⟨fun h => absurd h (Nat.not_lt_zero _), fun t h => nomatch h⟩
  | succ fuel ih =>
      by_cases hlt : block < 128
      · obtain ⟨text, hrun, -⟩ := sdcVerify_said fuel hlt err s
        have hlow := hwithin.1
        have hbelow : -2 ^ 62 ≤ block := by omega
        obtain ⟨hbuf, hnext⟩ := hsteady.fetch hbelow (by omega)
        obtain ⟨hwithin', hless⟩ := turn_within hwithin hlt hbuf
        have hsame' : ∀ c : Nat, c < block - faulty s block + 1 → Same (s.turned block) c := by
          intro c hc
          rcases eq_or_ne (c : Int) block with heq | hne
          · exact heq ▸ same_turned s block
          · exact (hsame c (by omega)).turned hbuf
        rw [hrun]
        generalize text ++ verdict _ _ = line
        have hwithin'' : Within ((s.turned block).said line) (block - faulty s block + 1) := by
          rwa [Within, wrong_said]
        obtain ⟨hends, hverified⟩ := @ih _ (err + faulty s block) ((s.turned block).said line)
          hnext hwithin'' hsame'
        refine ⟨fun hfuel => hends ?_, fun t ht => ?_⟩
        · rw [remaining, wrong_said, ← remaining]
          omega
        · obtain ⟨hbuf', hall, text', htext⟩ := hverified t ht
          refine ⟨hbuf'.trans hbuf, hall, line ++ text', ?_⟩
          rw [htext]
          exact Con.said_said s.console line text'
      · have hend : sdcVerify (fuel + 1) block err s = some ((), s.said (ascii "\r\n")) := by
          rw [sdcVerify, Prog.ite_run, if_neg hlt, putsln_said (by simp)]
          rfl
        rw [hend]
        refine ⟨fun _ => ⟨_, rfl⟩, ?_⟩
        rintro t ⟨⟩
        exact ⟨rfl, fun c hc => hsame c (by omega), _, rfl⟩

/-! ## Phase 1 -/

theorem turned_other {s : State} {b : Nat} (hpos : 0 < b) (hlt : b < 128) :
    s.turned b = s.copied (chkAddr b) 512 := by
  rw [State.turned, BitVec.ofInt_natCast, fetch_unaligned hpos (by omega)]
  rfl

theorem clean_line {line : List Byte} (h : Con.Clean line) {b : Nat} (hb : b < 128) :
    Con.Clean (line ++ (Con.decimals 3 (BitVec.ofNat 16 b).toNat ++ ascii "/127\r")) := by
  have hnum : Con.Clean (Con.decimals 3 (BitVec.ofNat 16 b).toNat) := by
    refine Con.clean_decimals ?_
    rw [BitVec.toNat_ofNat]
    omega
  have htail : Con.Clean (ascii "/127\r") := by simp [Con.Clean, ascii]
  exact h.append (hnum.append htail)

/-- RAM up to block `n` is copies of this card's buffer; else only text has
been printed. -/
structure Filled (card : Card) (n : Nat) (s t : State) : Prop where
  ramOnly : RamOnly (s.withCard card) t
  same : ∀ c : Nat, c < n → Same t c
  printed : ∃ text, t.console = s.console.said text ∧ Con.Clean text

theorem Filled.card_eq {card : Card} {n : Nat} {s t : State} (h : Filled card n s t) :
    t.card = card := by
  obtain ⟨_, _, rfl⟩ := h.ramOnly
  rfl

theorem Filled.mirrors {card : Card} {n : Nat} {s t : State} (h : Filled card n s t) :
    Mirrors t.sram card.buffer n :=
  h.card_eq ▸ mirrors_of_same h.same

theorem Filled.said {card : Card} {n : Nat} {s t : State} (h : Filled card n s t)
    {text : List Byte} (hclean : Con.Clean text) : Filled card n s (t.said text) where
  ramOnly := IsTrans.trans _ _ _ h.ramOnly ⟨_, _, rfl⟩
  same := h.same
  printed := by
    obtain ⟨text', ht, hclean'⟩ := h.printed
    refine ⟨text' ++ text, ?_, hclean'.append hclean⟩
    rw [← Con.said_said, ← ht]
    rfl

/-- Phase 1 puts what block 0 reads as into all of RAM. -/
theorem sdcLoads_said (s : State) {n : Nat} (hn : n < 128) : ∃ t,
    Prog.upTo (n + 1) sdcLoad s = some ((), t)
      ∧ Filled (Sdcard.fetch 0 s.card).2 (n + 1) s t := by
  have htitle : Con.Clean (ascii "sdc test phase 1: ") := by simp [Con.Clean, ascii]
  induction n with
  | zero =>
      refine ⟨_, (Prog.bind_of_run (Prog.pure_run () s) _).trans (sdcLoad_said 0 s),
        ⟨_, _, rfl⟩, fun c hc => ?_, _, rfl, clean_line htitle hn⟩
      rw [Nat.lt_one_iff.mp hc]
      exact same_turned s 0
  | succ n ih =>
      obtain ⟨t, hrun, hfilled⟩ := ih (by omega)
      have hother := turned_other (s := t) (Nat.succ_pos n) hn
      have hturned : Filled (Sdcard.fetch 0 s.card).2 (n + 2) s (t.turned (n + 1 : Nat)) := by
        refine ⟨?_, fun c hc => ?_, ?_⟩
        · rw [hother]
          exact IsTrans.trans _ _ _ hfilled.ramOnly ⟨_, _, rfl⟩
        · rcases Nat.eq_or_lt_of_le (Nat.le_of_lt_succ hc) with rfl | hlt
          · exact same_turned t _
          · refine (hfilled.same c hlt).turned ?_
            rw [hother, copied_card]
        · rw [hother]
          exact hfilled.printed
      exact ⟨_, (Prog.bind_of_run hrun _).trans (sdcLoad_said (n + 1) t),
        hturned.said (clean_line htitle hn)⟩

/-! ## The whole test -/

/-- Block 0 reads the same the second time. -/
def Rereads (card : Card) : Prop :=
  (Sdcard.fetch 0 (Sdcard.fetch 0 card).2).2.buffer = (Sdcard.fetch 0 card).2.buffer

theorem sdcChk_loads (s : State) : ∃ t, (∀ fuel, sdcChk fuel s = sdcVerify fuel 0 0 t)
    ∧ Filled (Sdcard.fetch 0 s.card).2 128 s t := by
  obtain ⟨t, hrun, hfilled⟩ := @sdcLoads_said s 127 (by decide)
  have hline : Con.Clean (ascii "\r\n") := by simp [Con.Clean, ascii]
  refine ⟨t.said (ascii "\r\n"), fun fuel => ?_, hfilled.said hline⟩
  rw [sdcChk, Prog.bind_of_run hrun, Prog.bind_of_run (putsln_said (by simp) t)]
  rfl

theorem clean_verdict {b : Nat} (hb : b < 128) : Con.Clean (verdict b 0) := by
  have htitle : Con.Clean (ascii "sdc test phase 2: ") := by simp [Con.Clean, ascii]
  exact clean_line htitle hb

/-- What is left of phase 2 when no difference has been found. -/
theorem sdcVerify_quiet {fuel b : Nat} {s : State} (hb : 0 < b) (hle : b ≤ 128)
    (hall : ∀ c : Nat, c < 128 → Same s c) (hfuel : 128 < fuel + b) :
    ∃ text, sdcVerify fuel b 0 s = some ((), s.said text) ∧ Con.Clean text := by
  induction fuel generalizing b s with
  | zero => omega
  | succ fuel ih =>
      by_cases hlt : b < 128
      · have hless : (b : Int) < 128 := by omega
        obtain ⟨text, hrun, hnone⟩ := sdcVerify_said fuel hless 0 s
        have hsame : s.turned b = s :=
          (turned_other hb hlt).trans (copied_same (hall b hlt) le_rfl)
        have hzero : faulty s b = 0 := (faulty_zero_iff (by rw [hsame])).mpr (hall b hlt)
        rw [hnone hzero, hzero, hsame, Int.natCast_zero, Int.sub_zero, Int.add_zero,
          List.nil_append] at hrun
        obtain ⟨text', hrest, hclean⟩ := ih (b := b + 1) (s := s.said (verdict b 0))
          (Nat.succ_pos b) hlt hall (by omega)
        refine ⟨verdict b 0 ++ text', ?_, (clean_verdict hlt).append hclean⟩
        rw [hrun, ← said_said]
        exact hrest
      · refine ⟨ascii "\r\n", ?_, by decide⟩
        rw [sdcVerify, Prog.ite_run, if_neg (by omega), putsln_said (by simp)]
        rfl

/-- In RAM that holds the buffer, bytes of the block differ if and only if
the buffer has changed. -/
theorem faulty_reread {s : State} (h : Same s 0) :
    faulty s 0 = 0 ↔ (s.turned 0).card.buffer = s.card.buffer := by
  refine ⟨fun hzero => ?_, fun hbuf => (faulty_zero_iff hbuf).mpr h⟩
  have hsame : Same (s.withCard (Sdcard.fetch 0 s.card).2) 0 := (differing_zero_iff _ _).mp hzero
  obtain ⟨buffer, _, _, hout, hmoved⟩ := fetch_moved s.card 0
  funext i
  by_cases hi : i < 512
  · have hnat : (BitVec.ofNat 16 i).toNat = i := Nat.mod_eq_of_lt (by omega)
    have hnew := (hsame i hi).symm.trans (h i hi)
    rwa [hnat] at hnew
  · have hbuf : (s.turned 0).card.buffer = buffer := congrArg Card.buffer hmoved
    rw [hbuf]
    exact hout i (by omega)

/-- The card after the two readings of block 0 both phases begin with. -/
def twice (card : Card) : Card := (Sdcard.fetch 0 (Sdcard.fetch 0 card).2).2

/-- When it reads the same again no error is found, and RAM is full of
what it reads as. -/
theorem sdcChk_quiet {fuel : Nat} (hfuel : 128 < fuel) {s : State} (h : Rereads s.card) :
    ∃ t, sdcChk fuel s = some ((), t) ∧ Filled (twice s.card) 128 s t := by
  obtain ⟨t, hrun, hfilled⟩ := sdcChk_loads s
  obtain ⟨more, rfl⟩ : ∃ more, fuel = more + 1 := ⟨fuel - 1, by omega⟩
  have hsame := hfilled.same 0 (by decide)
  have hbuf : (t.turned 0).card.buffer = t.card.buffer := by
    rw [turned_card, hfilled.card_eq]
    exact h
  have hzero : faulty t 0 = 0 := (faulty_reread hsame).mpr hbuf
  have hless : (0 : Int) < 128 := by decide
  obtain ⟨text, hturn, hnone⟩ := sdcVerify_said more hless 0 t
  rw [hnone hzero, hzero, List.nil_append] at hturn
  have hfilled' : Filled (twice s.card) 128 s (t.turned 0) := by
    refine ⟨?_, fun c hc => (hfilled.same c hc).turned hbuf, hfilled.printed⟩
    have hcard : (Sdcard.fetch (BitVec.ofInt 64 0) t.card).2 = twice s.card := by
      rw [hfilled.card_eq]
      rfl
    rw [State.turned, hcard]
    obtain ⟨_, _, rfl⟩ := hfilled.ramOnly
    exact ⟨_, _, rfl⟩
  obtain ⟨text', hrest, hclean⟩ := @sdcVerify_quiet more 1 ((t.turned 0).said (verdict 0 0))
    (by decide) (by decide) hfilled'.same (by omega)
  have hline : Con.Clean (verdict 0 0) := @clean_verdict 0 (by decide)
  exact ⟨_, (hrun _).trans (hturn.trans hrest), (hfilled'.said hline).said hclean⟩

/-- On a card whose first block can be read the test comes to its end with
that block in the buffer. -/
theorem sdcChk_run {fuel : Nat} {s : State} (hfuel : 128 < fuel) (hquiet : s.card.faults = [])
    (hok : FetchOk s.card 0) :
    ∃ u t, sdcChk fuel s = some (u, t) ∧ RamOnly (s.withCard (s.card.loaded 0)) t := by
  have hsettled : Settled (s.card.loaded 0) := congrArg Prod.snd (loaded_settled hquiet hok)
  have htwice : twice s.card = s.card.loaded 0 := by
    rw [twice, fetch_ok hok]
    exact hsettled
  have hrereads : Rereads s.card := by
    rw [Rereads, fetch_ok hok, hsettled]
  obtain ⟨t, hrun, hfilled⟩ := sdcChk_quiet hfuel hrereads
  exact ⟨(), t, hrun, htwice ▸ hfilled.ramOnly⟩

theorem verdict_reports (block : Int) {err : Int} (h : err ≠ 0) :
    ascii " w/ error(s) " <:+: verdict block err := by
  rw [verdict, if_pos h, List.append_assoc]
  exact (((List.prefix_append _ _).isInfix.trans (List.suffix_append _ _).isInfix).trans
    (List.suffix_append _ _).isInfix).trans (List.suffix_append _ _).isInfix

/-- When it does not, an error is reported, and while the buffer stays as
the second reading has left it the test ends with all of RAM like that. -/
theorem sdcChk_differs {s : State} (h : ¬Rereads s.card) {fuel : Nat}
    (hsteady : Steady fuel (twice s.card)) :
    (66000 < fuel → ∃ t, sdcChk (fuel + 1) s = some ((), t))
      ∧ ∀ t, sdcChk (fuel + 1) s = some ((), t) → Mirrors t.sram (twice s.card).buffer 128
        ∧ ∃ text, t.console = s.console.said text ∧ ascii " w/ error(s) " <:+: text := by
  obtain ⟨t, hrun, hfilled⟩ := sdcChk_loads s
  have hcard := hfilled.card_eq
  have hsame := hfilled.same 0 (by decide)
  have hchanged : faulty t 0 ≠ 0 := by
    rwa [Ne, faulty_reread hsame, turned_card, hcard]
  have hless : (0 : Int) < 128 := by decide
  obtain ⟨text', hturn, -⟩ := sdcVerify_said fuel hless 0 t
  have herror : (0 : Int) + faulty t 0 ≠ 0 := by omega
  have hreports := (verdict_reports (0 - faulty t 0) herror).trans
    (List.suffix_append text' _).isInfix
  rw [hrun, hturn]
  generalize text' ++ verdict _ _ = line at hreports
  have hle : faulty t 0 ≤ 512 := differing_le _ _
  have hfirst : (wrong (t.turned 0)).card < 128 := @wrong_turned_card t 0 (by decide)
  have hsteady' : Steady fuel ((t.turned 0).said line).card := by
    rw [said_card, turned_card, hcard]
    exact hsteady
  have hwithin : Within ((t.turned 0).said line) (0 - faulty t 0 + 1) := by
    rw [Within, wrong_said]
    omega
  obtain ⟨hends, hverified⟩ := @sdcVerify_steady fuel _ (0 + faulty t 0) _ hsteady' hwithin
    fun c hc => by omega
  refine ⟨fun hfuel => hends ?_, fun u hu => ?_⟩
  · rw [remaining, wrong_said]
    omega
  · obtain ⟨hbuf, hsame', text'', htext⟩ := hverified u hu
    obtain ⟨text, ht, -⟩ := hfilled.printed
    have hkept : u.card.buffer = (twice s.card).buffer := by
      rw [hbuf, said_card, turned_card, hcard]
      rfl
    refine ⟨hkept ▸ mirrors_of_same hsame', text ++ (line ++ text''), ?_,
      (hreports.trans (List.prefix_append _ _).isInfix).trans (List.suffix_append _ _).isInfix⟩
    have hthen : u.console = (t.console.said line).said text'' := htext
    rw [hthen, ht, Con.said_said, Con.said_said]

/-! ## What is in the buffer then -/

/-- How many bytes a reading of block 0 brings. -/
def brings (card : Card) (fault : Fault) : Nat := { card with faults := [fault] }.delivered 0

theorem brings_moved {card card' : Card} (h : Moved card card') (fault : Fault) :
    brings card' fault = brings card fault := by
  obtain ⟨_, _, _, -, rfl⟩ := h
  rfl

theorem brings_closed {card : Card} (h : card.fp = .none) (fault : Fault) :
    brings card fault = 0 := if_pos (.inl h)

theorem delivered_zero {card : Card} {fault : Fault} (h : card.fp ≠ .none → card.fault = fault) :
    card.delivered 0 = brings card fault := by
  by_cases hfp : card.fp = .none
  · rw [brings_closed hfp]
    exact if_pos (.inl hfp)
  · rw [brings, ← h hfp]
    rfl

theorem read_buffer {card : Card} {fault : Fault} (h : card.fp ≠ .none → card.fault = fault)
    (i : Nat) : (Sdcard.fetch 0 card).2.buffer i
      = if i < brings card fault then card.image.byte i else card.buffer i := by
  rw [fetch_buffer, delivered_zero h, splice]
  simp [Image.block]

theorem read_faults {card : Card} (h : card.fp ≠ .none) :
    (Sdcard.fetch 0 card).2.faults = card.faults.tail := by
  have haligned : ¬(0 : ULong) &&& 0x1ff#64 ≠ 0#64 := by decide
  rw [fetch_run, if_neg h, if_neg haligned]
  split_ifs <;> rfl

/-- The card, with what stdio is going to do. -/
def facing (card : Card) (faults : List Fault) : Card := { card with faults := faults }

section Readings

variable (card : Card) (first second : Fault) (later : List Fault)

theorem first_buffer (i : Nat) :
    (Sdcard.fetch 0 (facing card (first :: second :: later))).2.buffer i
      = if i < brings card first then card.image.byte i else card.buffer i :=
  @read_buffer (facing card (first :: second :: later)) first (fun _ => rfl) i

theorem second_buffer (i : Nat) : (twice (facing card (first :: second :: later))).buffer i
    = if i < brings card second then card.image.byte i
      else if i < brings card first then card.image.byte i else card.buffer i := by
  have hmoved := fetch_moved (facing card (first :: second :: later)) 0
  have hfault (h : (Sdcard.fetch 0 (facing card (first :: second :: later))).2.fp ≠ .none) :
      (Sdcard.fetch 0 (facing card (first :: second :: later))).2.fault = second := by
    rw [hmoved.fp] at h
    rw [Card.fault, read_faults h]
    rfl
  rw [twice, read_buffer hfault, brings_moved hmoved, hmoved.image, first_buffer]
  rfl

theorem rereads_iff : Rereads (facing card (first :: second :: later))
    ↔ ∀ i, brings card first ≤ i → i < brings card second → card.buffer i = card.image.byte i := by
  rw [Rereads, ← twice, funext_iff]
  refine forall_congr' fun i => ?_
  rw [first_buffer, second_buffer]
  by_cases hfirst : i < brings card first
  · simp [hfirst]
  · by_cases hsecond : i < brings card second
    · simp [hfirst, hsecond, eq_comm, not_lt.mp hfirst]
    · simp [hfirst, hsecond]

theorem whole_iff : Whole (twice (facing card (first :: second :: later)))
    ↔ ∀ i < 512, brings card first ≤ i → brings card second ≤ i →
      card.buffer i = card.image.byte i := by
  have himage : (twice (facing card (first :: second :: later))).image = card.image :=
    ((fetch_moved _ _).trans (fetch_moved _ _)).image
  refine forall₂_congr fun i _ => ?_
  rw [second_buffer, himage]
  by_cases hfirst : i < brings card first
  · simp [hfirst]
  · by_cases hsecond : i < brings card second
    · simp [hsecond]
    · simp [hfirst, hsecond, not_lt.mp hfirst, not_lt.mp hsecond]

end Readings

theorem rereads_closed {card : Card} (h : card.fp = .none) : Rereads card := by
  have hnone : (Sdcard.fetch 0 card).2 = card := by
    rw [fetch_run, if_pos h]
  rw [Rereads, hnone, hnone]

theorem twice_faults {card : Card} (h : card.fp ≠ .none) :
    (twice card).faults = card.faults.tail.tail := by
  rw [twice, read_faults (by rwa [(fetch_moved card 0).fp]), read_faults h]

/-! ## The result -/

/-- The card before the `k`-th fetch when no difference has been found:
both phases go through the blocks in order. -/
def cardAt (card : Card) : Nat → Card
  | 0 => card
  | k + 1 => (Sdcard.fetch (BitVec.ofNat 64 (k % 128)) (cardAt card k)).2

/-- Each block is fetched in both phases, with the same content. -/
def AllFetched (card : Card) : Prop := ∀ b < 128,
  (Sdcard.fetch (BitVec.ofNat 64 b) (cardAt card b)).1 = 0
    ∧ (Sdcard.fetch (BitVec.ofNat 64 b) (cardAt card (128 + b))).1 = 0
    ∧ ∀ i < 512, (cardAt card (b + 1)).buffer i = (cardAt card (128 + b + 1)).buffer i

/-- When the test ends all of RAM is as the image has it, and when no
error has been reported every block has been fetched. -/
def ReadsCard (s : State) : Prop := ∀ fuel t text, sdcChk fuel s = some ((), t) →
  t.console.stdout = s.console.stdout ++ text →
    (∀ b < 128, ∀ i < 512, t.sram (BitVec.ofNat 16 (b * 512 + i)) = s.card.image.byte (b * 512 + i))
    ∧ (¬ascii " w/ error(s) " <:+: text → AllFetched s.card)

/-- Block 1 never is. -/
theorem not_allFetched (card : Card) : ¬AllFetched card := by
  intro h
  have hok : FetchOk (cardAt card 1) (BitVec.ofNat 64 1) := (fetch_iff _ _).mp (h 1 (by decide)).1
  exact absurd hok.aligned (by decide)

theorem clean_silent {text : List Byte} (h : Con.Clean text) : ¬ascii " w/ error(s) " <:+: text :=
  fun hin => (h 0x28 (hin.subset (by decide))).2 rfl

/-- A card that reads the same again passes unread. -/
theorem rereads_passes {s : State} (h : Rereads s.card) : ¬ReadsCard s := by
  intro hreads
  obtain ⟨t, hrun, hfilled⟩ := @sdcChk_quiet 129 (by decide) s h
  obtain ⟨text, ht, hclean⟩ := hfilled.printed
  have hall := (hreads 129 t text hrun (congrArg Con.Console.stdout ht)).2 (clean_silent hclean)
  exact not_allFetched s.card hall

/-- The second reading of block 0 puts right what the first has left
wrong, and the image is 128 times that block. -/
structure PutRight (card : Card) (first second : Fault) : Prop where
  differs : ∃ i, brings card first ≤ i ∧ i < brings card second
    ∧ card.buffer i ≠ card.image.byte i
  whole : ∀ i < 512, brings card first ≤ i → brings card second ≤ i →
    card.buffer i = card.image.byte i
  alike : ∀ b < 128, ∀ i < 512, card.image.byte (b * 512 + i) = card.image.byte i

theorem not_rereads_iff (card : Card) (first second : Fault) (later : List Fault) :
    ¬Rereads (facing card (first :: second :: later)) ↔ ∃ i, brings card first ≤ i
      ∧ i < brings card second ∧ card.buffer i ≠ card.image.byte i := by
  rw [rereads_iff]
  simp only [not_forall, exists_prop, ne_eq]

theorem putRight_reads {s : State} {first second : Fault} (h : PutRight s.card first second)
    (later : List Fault) : ReadsCard (s.withCard (facing s.card (first :: second :: later))) := by
  have hdiffers : ¬Rereads (s.withCard (facing s.card (first :: second :: later))).card :=
    (not_rereads_iff s.card first second later).mpr h.differs
  have hwhole := (whole_iff s.card first second later).mpr h.whole
  have himage : (twice (facing s.card (first :: second :: later))).image = s.card.image :=
    ((fetch_moved _ _).trans (fetch_moved _ _)).image
  intro fuel t text hrun htext
  cases fuel with
  | zero =>
      obtain ⟨u, hnone, -⟩ := sdcChk_loads
        (s.withCard (facing s.card (first :: second :: later)))
      cases (hnone 0).symm.trans hrun
  | succ fuel =>
      have hsteady : Steady fuel (twice (facing s.card (first :: second :: later))) := .inl hwhole
      obtain ⟨-, hafter⟩ := sdcChk_differs hdiffers hsteady
      obtain ⟨hmirrors, text', ht, herror⟩ := hafter t hrun
      refine ⟨fun b hb i hi => ?_, fun hsilent => absurd ?_ hsilent⟩
      · rw [mirrors_byte hmirrors hb hi, withCard_card, hwhole i hi, himage]
        exact (h.alike b hb i hi).symm
      · rw [ht] at htext
        exact List.append_cancel_left htext ▸ herror

theorem reads_putRight {s : State} {first second : Fault}
    (h : ∀ later, ReadsCard (s.withCard (facing s.card (first :: second :: later)))) :
    PutRight s.card first second := by
  have hreads := h (List.replicate 66001 .seek)
  have hdiffers : ¬Rereads (facing s.card (first :: second :: List.replicate 66001 .seek)) :=
    fun hsame => rereads_passes (s := s.withCard (facing s.card _)) hsame hreads
  have hopened : (facing s.card (first :: second :: List.replicate 66001 .seek)).fp ≠ .none :=
    fun hclosed => hdiffers (rereads_closed hclosed)
  have hdeaf : Deaf 66001 (twice (facing s.card (first :: second :: List.replicate 66001 .seek))) :=
    ⟨66001, le_rfl, twice_faults hopened⟩
  have himage : (twice (facing s.card (first :: second :: List.replicate 66001 .seek))).image
      = s.card.image := ((fetch_moved _ _).trans (fetch_moved _ _)).image
  have hwhole := whole_iff s.card first second (List.replicate 66001 .seek)
  have hdiffers' := not_rereads_iff s.card first second (List.replicate 66001 .seek)
  generalize List.replicate 66001 Fault.seek = later at *
  obtain ⟨hends, hafter⟩ := sdcChk_differs
    (s := s.withCard (facing s.card (first :: second :: later))) hdiffers (.inr hdeaf)
  obtain ⟨t, hrun⟩ := hends (by decide)
  obtain ⟨hmirrors, text, ht, -⟩ := hafter t hrun
  have hbytes : ∀ b < 128, ∀ i < 512, s.card.image.byte (b * 512 + i)
      = (twice (facing s.card (first :: second :: later))).buffer i := by
    intro b hb i hi
    have hright := (hreads _ t text hrun (congrArg Con.Console.stdout ht)).1 b hb i hi
    rw [mirrors_byte hmirrors hb hi] at hright
    exact hright.symm
  have hzero : ∀ i < 512, s.card.image.byte i
      = (twice (facing s.card (first :: second :: later))).buffer i := by
    intro i hi
    simpa using hbytes 0 (by decide) i hi
  refine ⟨hdiffers'.mp hdiffers, hwhole.mp fun i hi => ?_, fun b hb i hi => ?_⟩
  · rw [himage]
    exact (hzero i hi).symm
  · rw [hbytes b hb i hi, hzero i hi]

/-- Whatever stdio does from the third reading of block 0 on, the test
reads the card if and only if the second one puts right what the first has
left wrong and the image is 128 times block 0. -/
theorem reads_card_iff (s : State) (first second : Fault) :
    (∀ later, ReadsCard (s.withCard (facing s.card (first :: second :: later))))
      ↔ PutRight s.card first second :=
  ⟨reads_putRight, putRight_reads⟩

/-- A card whose blocks 0 and 1 are not the same. -/
def striped : State := State.initial {
  image := { len := 0x10000, byte := fun i => BitVec.ofNat 8 (i / 512) }
  access := some true
  buffer := fun _ => 0
  curBlk := 0
  fp := some true
  faults := [] }

/-- A first seek that fails, over a buffer that is not block 0. -/
example : PutRight { striped.card with image := ⟨0x10000, fun _ => 1⟩ } .seek .none where
  differs := ⟨0, by decide, by decide, by decide⟩
  whole _ hi _ h := absurd hi (not_lt.mpr h)
  alike _ _ _ _ := rfl

/-- The test finds no error on it, and has not read it. -/
theorem striped_passes : 128 * 512 ≤ striped.card.image.len ∧ ¬ReadsCard striped
    ∧ ∃ t text, sdcChk 129 striped = some ((), t) ∧ t.console = striped.console.said text
      ∧ ¬ascii " w/ error(s) " <:+: text ∧ t.sram 0x200 ≠ striped.card.image.byte 0x200 := by
  have hok : FetchOk striped.card 0 := Image.Holds.fetchOk ⟨by decide, by decide, by decide⟩
    (by decide) rfl
  have hrereads : Rereads striped.card := by
    rw [Rereads, fetch_ok hok, loaded_settled rfl hok]
  obtain ⟨t, hrun, hfilled⟩ := @sdcChk_quiet 129 (by decide) striped hrereads
  obtain ⟨text, ht, hclean⟩ := hfilled.printed
  refine ⟨le_rfl, rereads_passes hrereads, t, text, hrun, ht, clean_silent hclean, ?_⟩
  have hbyte : t.sram 0x200 = (twice striped.card).buffer 0 :=
    @mirrors_byte _ _ hfilled.mirrors 1 0 (by decide) (by decide)
  rw [hbyte, twice, fetch_ok hok, loaded_settled rfl hok, loaded_buffer _ _ (by decide)]
  decide

end Machine

end CpMega88
